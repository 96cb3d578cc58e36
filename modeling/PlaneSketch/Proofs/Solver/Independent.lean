import PlaneSketch.Proofs.Relation.Mirror
import PlaneSketch.Proofs.Solver.Frame

/-! Parts of a sketch that no link ties together. What a relation proposes depends on its own variables
alone, so that a pass over both parts makes of each what a pass over that part would. -/
namespace PlaneSketch

section Interleavings

variable {κ μ : Type}

/-- All entries are those of the two lists, each list in its own order. -/
inductive Interleaved : List κ → List κ → List κ → Prop
  | nil : Interleaved [] [] []
  | left {first second all : List κ} (x : κ) (rest : Interleaved first second all) :
    Interleaved (x :: first) second (x :: all)
  | right {first second all : List κ} (y : κ) (rest : Interleaved first second all) :
    Interleaved first (y :: second) (y :: all)

namespace Interleaved

variable {first second all : List κ}

theorem symm (merged : Interleaved first second all) : Interleaved second first all := by
  induction merged with
  | nil => exact .nil
  | left x _ ih => exact .right x ih
  | right y _ ih => exact .left y ih

private theorem flatMap_eq (merged : Interleaved first second all) {f : κ → List μ}
    (none : ∀ y ∈ second, f y = []) : all.flatMap f = first.flatMap f := by
  induction merged with
  | nil => rfl
  | left x _ ih => rw [List.flatMap_cons, List.flatMap_cons, ih none]
  | right y _ ih =>
    obtain ⟨head, rest⟩ := List.forall_mem_cons.mp none
    rw [List.flatMap_cons, head, List.nil_append, ih rest]

end Interleaved

end Interleavings

variable {α : Type} [Scalar α] {s t : Store α}

namespace Store

private theorem corrections_congr (names : SameNames s t) (flags : ∀ i, t.constantAt i = s.constantAt i)
    (deltas : List (Delta α)) : t.corrections deltas = s.corrections deltas := by
  rw [corrections, corrections, names.isConstant_congr flags]
  simp only [names.cellOf]

private theorem amountsFor_flatMap {ρ : Type} (s : Store α) (deltas : ρ → List (Delta α))
    (relations : List ρ) (i : Nat) : amountsFor i (s.corrections (relations.flatMap deltas)) =
      relations.flatMap fun relation => amountsFor i (s.corrections (deltas relation)) := by
  simp only [amountsFor, corrections, List.filter_flatMap, List.map_flatMap]

private theorem correct_correct (factor : α) {first second all : List (Nat × α)}
    (apart : ∀ i, amountsFor i all = amountsFor i first ∧ amountsFor i second = [] ∨
      amountsFor i all = amountsFor i second ∧ amountsFor i first = []) :
    (s.correct factor first).correct factor second = s.correct factor all := by
  refine ext_getElem? rfl fun i => ?_
  rw [getElem?_correct, getElem?_correct, getElem?_correct, Option.map_map]
  congr 1
  funext cell
  rcases apart i with ⟨same, none⟩ | ⟨same, none⟩
  · simp [same, none]
  · simp [same, none]

end Store

namespace Relation

private theorem map_id (relation : Relation) : relation.map id = relation := by
  cases relation with
  | midpoint | pointOnCircle | tangentLine => rfl
  | equalValues vs => exact congrArg _ (List.map_id vs)
  | colinearPoints points => exact congrArg _ (List.map_id points)
  | equalLength lines => exact congrArg _ (List.map_id lines)

private theorem deltas_congr (names : Store.SameNames s t) {relation : Relation}
    (cells : ∀ v ∈ relation.owned, t.cell v = s.cell v) : deltas t relation = deltas s relation := by
  have looks : Store.Resembles id relation.owned t s := ⟨cells, fun v _ w _ => names.isLinked v w⟩
  have mapped := deltas_map looks relation (List.Subset.refl _)
  rw [map_id] at mapped
  exact (mapped.trans (List.map_id _)).symm

/-- No variable of the relation names the cell. -/
def Avoids (s : Store α) (i : Nat) (relation : Relation) : Prop := ∀ v ∈ relation.owned, s.cellOf v ≠ i

private theorem Avoids.amountsFor_eq_nil {i : Nat} {relation : Relation} (avoids : relation.Avoids s i) :
    Store.amountsFor i (s.corrections (Constraint.deltas s relation)) = [] := by
  apply Store.amountsFor_eq_nil
  intro entry member here
  obtain ⟨delta, proposed, names, -⟩ := s.mem_corrections _ member
  exact avoids delta.target (target_mem_owned s relation proposed) (names.trans here)

variable {first second all : List Relation}

/-- If no relation of the second part names the cell, it is corrected as in a pass over the first part. -/
private theorem amountsFor_interleaved (merged : Interleaved first second all) {i : Nat}
    (avoid : ∀ q ∈ second, q.Avoids s i) :
    Store.amountsFor i (s.corrections (all.flatMap (Constraint.deltas s))) =
        Store.amountsFor i (s.corrections (first.flatMap (Constraint.deltas s))) ∧
      Store.amountsFor i (s.corrections (second.flatMap (Constraint.deltas s))) = [] := by
  have none : ∀ q ∈ second, Store.amountsFor i (s.corrections (Constraint.deltas s q)) = [] :=
    fun q member => (avoid q member).amountsFor_eq_nil
  simp only [Store.amountsFor_flatMap]
  exact ⟨merged.flatMap_eq none, List.flatMap_eq_nil_iff.mpr none⟩

private theorem relax_bind_relax (merged : Interleaved first second all)
    (apart : ∀ i, (∀ r ∈ first, r.Avoids s i) ∨ ∀ q ∈ second, q.Avoids s i) (factor : α) :
    (relax factor first s >>= relax factor second) = relax factor all s := by
  rw [relax_eq, ok_bind, relax_eq, relax_eq]
  generalize found : s.corrections (first.flatMap (Constraint.deltas s)) = corrections
  have names := s.sameNames_correct factor corrections
  have flags := s.constantAt_correct factor corrections
  have seen : second.flatMap (Constraint.deltas (s.correct factor corrections)) =
      second.flatMap (Constraint.deltas s) := by
    apply List.flatMap_congr
    intro q member
    apply deltas_congr names
    intro v own
    have avoid : ∀ r ∈ first, r.Avoids s (s.cellOf v) :=
      (apart _).resolve_right fun avoid => avoid q member v own rfl
    have none := (amountsFor_interleaved merged.symm avoid).2
    rw [found] at none
    rw [Store.cell_eq, Store.cell_eq, names.cellOf, Store.getElem?_correct, none]
    simp
  rw [seen, Store.corrections_congr names flags, ← found, Store.correct_correct]
  intro i
  rcases apart i with avoid | avoid
  · exact .inr (amountsFor_interleaved merged.symm avoid)
  · exact .inl (amountsFor_interleaved merged avoid)

/-- Where no variable of the one part is linked to a variable of the other, a pass over both, however they
are interleaved, is a pass over the one and then a pass over the other, in either order. -/
theorem relax_interleaved (merged : Interleaved first second all)
    (apart : ∀ r ∈ first, ∀ q ∈ second, ∀ v ∈ r.owned, ∀ w ∈ q.owned, s.isLinked v w = false) (factor : α) :
    ∃ t, relax factor all s = .ok t ∧ (relax factor first s >>= relax factor second) = .ok t ∧
      (relax factor second s >>= relax factor first) = .ok t := by
  have avoided : ∀ i, (∀ r ∈ first, r.Avoids s i) ∨ ∀ q ∈ second, q.Avoids s i := by
    intro i
    by_cases named : ∀ r ∈ first, r.Avoids s i
    · exact .inl named
    · refine .inr fun q member w own there => named fun r listed v mine here => ?_
      have linked := apart r listed q member v mine w own
      rw [Bool.eq_false_iff, Ne, Store.isLinked_iff] at linked
      exact linked (here.trans there.symm)
  have passed := relax_eq factor all s
  refine ⟨_, passed, ?_, ?_⟩
  · rw [relax_bind_relax merged avoided, passed]
  · rw [relax_bind_relax merged.symm fun i => (avoided i).symm, passed]

def pairedStore : Store Float := ⟨#[⟨0, false⟩, ⟨1, false⟩, ⟨2, true⟩, ⟨3.5, false⟩], #[0, 1, 2, 3, 3]⟩

def firstPair : List Relation := [.equalValues [⟨0⟩, ⟨1⟩], .equalValues [⟨1⟩, ⟨0⟩]]

def secondPair : List Relation := [.equalValues [⟨2⟩, ⟨3⟩, ⟨4⟩]]

def bothPairs : List Relation :=
  [.equalValues [⟨0⟩, ⟨1⟩], .equalValues [⟨2⟩, ⟨3⟩, ⟨4⟩], .equalValues [⟨1⟩, ⟨0⟩]]

theorem relax_interleaved_pairs :
    ∃ t, relax 0.5 bothPairs pairedStore = .ok t ∧
      (relax 0.5 firstPair pairedStore >>= relax 0.5 secondPair) = .ok t ∧
      (relax 0.5 secondPair pairedStore >>= relax 0.5 firstPair) = .ok t :=
  relax_interleaved (.left _ (.right _ (.left _ .nil))) (by decide) 0.5

end Relation

end PlaneSketch
