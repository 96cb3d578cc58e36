import PlaneSketch.Proofs.Exact
import PlaneSketch.Proofs.Solver.Frame
import PlaneSketch.Solver.Totals

/-! What a pass makes of each cell: the mean of all that is proposed for it, by whatever variables name
it. Running totals lead to the same store in whatever order they are applied, and in exact arithmetic the
order of the relations does not matter either. -/
namespace PlaneSketch

open Related Constraint

variable {α ρ : Type}

namespace Store

theorem amountsFor_concat_self (i : Nat) (corrections : List (Nat × α)) (amount : α) :
    amountsFor i (corrections ++ [(i, amount)]) = amountsFor i corrections ++ [amount] := by
  simp [amountsFor]

theorem amountsFor_concat_of_ne {i cell : Nat} (apart : cell ≠ i) (corrections : List (Nat × α)) (amount : α) :
    amountsFor i (corrections ++ [(cell, amount)]) = amountsFor i corrections := by
  simp [amountsFor, apart]

end Store

section Recording

variable [Scalar α] {s : Store α} {corrections : List (Nat × α)} {totals : List (Total α)}

structure Total.Sums (s : Store α) (corrections : List (Nat × α)) (total : Total α) : Prop where
  names : s.cellOf total.handle = total.cell
  sum : total.sum = (Store.amountsFor total.cell corrections).foldl (· + ·) 0
  count : total.count = (Store.amountsFor total.cell corrections).length

/-- The totals of corrections: one for each cell that is corrected. -/
structure Tally (s : Store α) (corrections : List (Nat × α)) (totals : List (Total α)) : Prop where
  cells : (totals.map Total.cell).Nodup
  sums : ∀ total ∈ totals, total.Sums s corrections
  counted : ∀ total ∈ totals, total.count ≠ 0
  missing : ∀ i, i ∉ totals.map Total.cell → Store.amountsFor i corrections = []

namespace Total

private theorem Sums.other {total : Total α} (sums : total.Sums s corrections) {cell : Nat}
    (apart : cell ≠ total.cell) (amount : α) : total.Sums s (corrections ++ [(cell, amount)]) where
  names := sums.names
  sum := by rw [Store.amountsFor_concat_of_ne apart, sums.sum]
  count := by rw [Store.amountsFor_concat_of_ne apart, sums.count]

private theorem Sums.add {total : Total α} (sums : total.Sums s corrections) (amount : α) :
    (total.add amount).Sums s (corrections ++ [(total.cell, amount)]) where
  names := sums.names
  sum := by
    change total.sum + amount =
      (Store.amountsFor total.cell (corrections ++ [(total.cell, amount)])).foldl (· + ·) 0
    rw [Store.amountsFor_concat_self, List.foldl_concat, sums.sum]
  count := by
    change total.count + 1 = (Store.amountsFor total.cell (corrections ++ [(total.cell, amount)])).length
    rw [Store.amountsFor_concat_self, List.length_append, sums.count]
    rfl

private theorem Sums.step_eq {total : Total α} (sums : total.Sums s corrections) (factor : α) :
    total.step factor = Store.stepOf factor (Store.amountsFor total.cell corrections) := by
  rw [step, Store.stepOf, sums.sum, sums.count]

private theorem record_cases (cell : Nat) (handle : Variable) (amount : α) (totals : List (Total α)) :
    (∃ old others, totals.Perm (old :: others) ∧ old.cell = cell ∧
      (record cell handle amount totals).Perm (old.add amount :: others)) ∨
    (cell ∉ totals.map Total.cell ∧
      (record cell handle amount totals).Perm (add ⟨cell, handle, 0, 0⟩ amount :: totals)) := by
  induction totals with
  | nil => exact .inr ⟨List.not_mem_nil, .refl _⟩
  | cons total rest ih =>
    rw [record]
    split
    case isTrue same => exact .inl ⟨total, rest, .refl _, same, .refl _⟩
    case isFalse other =>
      obtain ⟨old, others, listed, same, recorded⟩ | ⟨new, recorded⟩ := ih
      · exact .inl ⟨old, total :: others, (listed.cons total).trans (.swap ..), same,
          (recorded.cons total).trans (.swap ..)⟩
      · refine .inr ⟨?_, (recorded.cons total).trans (.swap ..)⟩
        rw [List.map_cons, List.mem_cons]
        rintro (same | known)
        · exact other same.symm
        · exact new known

end Total

namespace Tally

private theorem nil (s : Store α) : Tally s [] [] where
  cells := List.nodup_nil
  sums _ member := nomatch member
  counted _ member := nomatch member
  missing _ _ := rfl

theorem perm (tally : Tally s corrections totals) {others : List (Total α)} (perm : others.Perm totals) :
    Tally s corrections others where
  cells := (perm.map Total.cell).nodup_iff.mpr tally.cells
  sums total member := tally.sums total (perm.mem_iff.mp member)
  counted total member := tally.counted total (perm.mem_iff.mp member)
  missing i new := tally.missing i fun known => new ((perm.map Total.cell).mem_iff.mpr known)

private theorem add {total : Total α} (sums : total.Sums s corrections)
    (cells : ((total :: totals).map Total.cell).Nodup)
    (others : ∀ other ∈ totals, other.Sums s corrections) (counted : ∀ other ∈ totals, other.count ≠ 0)
    (missing : ∀ i, i ∉ (total :: totals).map Total.cell → Store.amountsFor i corrections = []) (amount : α) :
    Tally s (corrections ++ [(total.cell, amount)]) (total.add amount :: totals) where
  cells := cells
  sums := by
    rw [List.forall_mem_cons]
    refine ⟨sums.add amount, fun other member => (others other member).other ?_ amount⟩
    intro same
    exact (List.nodup_cons.mp cells).1 (same ▸ List.mem_map_of_mem member)
  counted := by
    rw [List.forall_mem_cons]
    exact ⟨Nat.succ_ne_zero _, counted⟩
  missing i new := by
    have apart : total.cell ≠ i := fun same => new (same ▸ List.mem_cons_self)
    rw [Store.amountsFor_concat_of_ne apart]
    exact missing i new

private theorem record (tally : Tally s corrections totals) (handle : Variable) (amount : α) :
    Tally s (corrections ++ [(s.cellOf handle, amount)])
      (Total.record (s.cellOf handle) handle amount totals) := by
  -- A tally may be rearranged, so the total that grows may as well stand first.
  obtain ⟨old, others, listed, same, recorded⟩ | ⟨new, recorded⟩ :=
    Total.record_cases (s.cellOf handle) handle amount totals
  · have arranged := tally.perm listed.symm
    obtain ⟨sums, others⟩ := List.forall_mem_cons.mp arranged.sums
    obtain ⟨-, counted⟩ := List.forall_mem_cons.mp arranged.counted
    rw [← same]
    exact (add sums arranged.cells others counted arranged.missing amount).perm (same ▸ recorded)
  · have none := tally.missing _ new
    have sums : Total.Sums s corrections ⟨s.cellOf handle, handle, 0, 0⟩ :=
      ⟨rfl, by rw [none]; rfl, by rw [none]; rfl⟩
    have missing : ∀ i, i ∉ s.cellOf handle :: totals.map Total.cell → Store.amountsFor i corrections = [] :=
      fun i absent => tally.missing i fun known => absent (List.mem_cons_of_mem _ known)
    exact (add sums (List.nodup_cons.mpr ⟨new, tally.cells⟩) tally.sums tally.counted missing amount).perm
      recorded

end Tally

private theorem Store.tally_totals (s : Store α) (deltas : List (Delta α)) :
    Tally s (s.corrections deltas) (s.totals deltas) := by
  rw [totals, ← List.foldl_filter, corrections]
  generalize deltas.filter _ = counting
  induction counting using List.reverseRecOn with
  | nil => exact Tally.nil s
  | append_singleton counting delta ih =>
    rw [List.map_append, List.foldl_concat]
    exact ih.record delta.target delta.amount

end Recording

namespace Store

variable [Scalar α]

section Settling

variable {s : Store α}

theorem getElem?_shift (s : Store α) (v : Variable) (delta : α) (i : Nat) :
    (s.shift v delta).cells[i]? =
      if s.cellOf v = i then (s.cells[i]?).map fun cell => { cell with value := cell.value + delta }
      else s.cells[i]? :=
  s.getElem?_updateCell ..

theorem getElem?_settle_of_apart {i : Nat} (factor : α) {totals : List (Total α)}
    (apart : ∀ total ∈ totals, s.cellOf total.handle ≠ i) : (s.settle factor totals).cells[i]? = s.cells[i]? := by
  induction totals generalizing s with
  | nil => rfl
  | cons total totals ih =>
    obtain ⟨first, rest⟩ := List.forall_mem_cons.mp apart
    have later := ih (s := s.shift total.handle (total.step factor)) rest
    exact later.trans ((s.getElem?_shift ..).trans (if_neg first))

private theorem getElem?_settle_of_mem (factor : α) {totals : List (Total α)} {total : Total α}
    (apart : (totals.map fun total => s.cellOf total.handle).Nodup) (member : total ∈ totals) :
    (s.settle factor totals).cells[s.cellOf total.handle]? =
      (s.cells[s.cellOf total.handle]?).map fun cell =>
        { cell with value := cell.value + total.step factor } := by
  induction totals generalizing s with
  | nil => cases member
  | cons first totals ih =>
    obtain ⟨new, apart⟩ := List.nodup_cons.mp apart
    have others : ∀ other ∈ totals, s.cellOf other.handle ≠ s.cellOf first.handle :=
      fun other later same => new (List.mem_map.mpr ⟨other, later, same⟩)
    have step := s.getElem?_shift first.handle (first.step factor) (s.cellOf total.handle)
    rcases List.mem_cons.mp member with rfl | later
    · rw [if_pos rfl] at step
      have rest := getElem?_settle_of_apart (s := s.shift total.handle (total.step factor)) factor others
      exact rest.trans step
    · rw [if_neg (others total later).symm] at step
      have rest := ih (s := s.shift first.handle (first.step factor)) apart later
      exact rest.trans (congrArg _ step)

private theorem sameNames_settle (s : Store α) (factor : α) (totals : List (Total α)) :
    SameNames s (s.settle factor totals) :=
  sameNames_foldl (fun s _ => s.sameNames_updateCell _ _) totals s

private theorem settle_eq {corrections : List (Nat × α)} {totals : List (Total α)}
    (tally : Tally s corrections totals) (factor : α) : s.settle factor totals = s.correct factor corrections := by
  have named : totals.map (fun total => s.cellOf total.handle) = totals.map Total.cell :=
    List.map_congr_left fun total member => (tally.sums total member).names
  refine ext_getElem? (s.sameNames_settle factor totals).named fun i => ?_
  rw [getElem?_correct]
  by_cases known : i ∈ totals.map Total.cell
  · obtain ⟨total, member, rfl⟩ := List.mem_map.mp known
    have sums := tally.sums total member
    have applied := getElem?_settle_of_mem factor (named ▸ tally.cells) member
    have some : (amountsFor total.cell corrections).isEmpty = false := by
      rw [List.isEmpty_eq_false_iff, ← List.length_pos_iff, ← sums.count]
      exact Nat.pos_of_ne_zero (tally.counted total member)
    rw [sums.names, sums.step_eq] at applied
    simp only [applied, some]
    rfl
  · have apart : ∀ total ∈ totals, s.cellOf total.handle ≠ i := fun total member here =>
      known (named ▸ List.mem_map.mpr ⟨total, member, here⟩)
    rw [getElem?_settle_of_apart factor apart, tally.missing i known]
    simp

end Settling

section Proposals

def proposalsFor (s : Store α) (i : Nat) (deltas : List (Delta α)) : List α :=
  (deltas.filter fun delta => s.cellOf delta.target == i && Scalar.isFinite delta.amount).map Delta.amount

private theorem amountsFor_of_free {s : Store α} {i : Nat} (free : s.constantAt i ≠ some true)
    (deltas : List (Delta α)) : amountsFor i (s.corrections deltas) = s.proposalsFor i deltas := by
  have counts : ∀ delta : Delta α, s.cellOf delta.target = i → s.isConstant delta.target = false := by
    rintro delta rfl
    rw [isConstant_eq]
    cases flag : s.constantAt (s.cellOf delta.target) with
    | none => rfl
    | some constant =>
      cases constant with
      | false => rfl
      | true => exact absurd flag free
  rw [amountsFor, corrections, List.filter_map, List.map_map, List.filter_filter, proposalsFor]
  apply congrArg
  apply List.filter_congr
  intro delta _
  by_cases here : s.cellOf delta.target = i
  · simp [counts delta here]
  · simp [beq_false_of_ne here]

end Proposals

private theorem valueAt_correct_of_some (s : Store α) (factor : α) (corrections : List (Nat × α)) {i : Nat}
    {amounts : List α} (found : amountsFor i corrections = amounts) (some : amounts ≠ []) :
    (s.correct factor corrections).valueAt i = (s.valueAt i).map (· + stepOf factor amounts) := by
  rw [valueAt_correct, found, List.isEmpty_eq_false_iff.mpr some]
  rfl

section Exact

private theorem stepOf_perm [RightCommutative ((· + ·) : α → α → α)] (factor : α) {amounts others : List α}
    (perm : amounts.Perm others) : stepOf factor amounts = stepOf factor others := by
  rw [stepOf, stepOf, perm.foldl_eq, perm.length_eq]

private theorem correct_perm [RightCommutative ((· + ·) : α → α → α)] (s : Store α) (factor : α)
    {corrections others : List (Nat × α)} (perm : corrections.Perm others) :
    s.correct factor corrections = s.correct factor others := by
  have amounts : ∀ i, (amountsFor i corrections).Perm (amountsFor i others) :=
    fun i => (perm.filter _).map _
  refine ext_getElem? rfl fun i => ?_
  rw [getElem?_correct, getElem?_correct, stepOf_perm factor (amounts i), (amounts i).isEmpty_eq]

instance : RightCommutative ((· + ·) : ℝ → ℝ → ℝ) := ⟨add_right_comm⟩

end Exact

end Store

/-- However the totals of a pass are arranged, they lead where the pass leads. -/
theorem relaxByTotals_eq [Scalar α] [Constraint α ρ] {arrange : List (Total α) → List (Total α)}
    (perm : ∀ totals, (arrange totals).Perm totals) (factor : α) (relations : List ρ) (s : Store α) :
    relaxByTotals arrange factor relations s = relax factor relations s := by
  rw [relaxByTotals, relax]
  cases relations.mapM (ownDeltas s) with
  | error kind => rfl
  | ok deltas =>
    have tally := (s.tally_totals deltas.flatten).perm (perm _)
    rw [ok_bind, ok_bind, Store.settle_eq tally]

namespace Relation

/-- A pass moves each free cell by the scaled mean of all finite changes that are proposed for it on the
state before the pass, and leaves the rest. Neither the order in which cells are written matters nor, with
exact numbers, the order of the relations. -/
theorem relax_means [Scalar α] (factor : α) (relations : List Relation) (s : Store α) :
    (∃ t, relax factor relations s = .ok t ∧ Store.SameNames s t ∧
      (∀ i, t.constantAt i = s.constantAt i) ∧
      (∀ i amounts, s.constantAt i = some false →
        s.proposalsFor i (relations.flatMap (Constraint.deltas s)) = amounts → amounts ≠ [] →
        t.valueAt i = (s.valueAt i).map fun old =>
          old + factor * amounts.foldl (· + ·) 0 / Scalar.ofNat amounts.length) ∧
      (∀ i, s.constantAt i = some true ∨ s.proposalsFor i (relations.flatMap (Constraint.deltas s)) = [] →
        t.valueAt i = s.valueAt i) ∧
      ∀ arrange : List (Total α) → List (Total α), (∀ totals, (arrange totals).Perm totals) →
        relaxByTotals arrange factor relations s = .ok t) ∧
    ∀ (exact : ℝ) (others : List Relation) (u : Store ℝ), relations.Perm others →
      relax exact relations u = relax exact others u := by
  constructor
  · have passed := relax_eq factor relations s
    refine ⟨_, passed, s.sameNames_correct factor _, s.constantAt_correct factor _, ?_, ?_, ?_⟩
    · rintro i amounts free rfl proposed
      have free : s.constantAt i ≠ some true := by simp [free]
      exact s.valueAt_correct_of_some factor _ (Store.amountsFor_of_free free _) proposed
    · intro i still
      apply s.valueAt_correct_of_nil
      by_cases constant : s.constantAt i = some true
      · exact Store.amountsFor_of_constant constant _
      · rw [Store.amountsFor_of_free constant]
        exact still.resolve_left constant
    · intro arrange perm
      rw [relaxByTotals_eq perm, passed]
  · intro exact others u perm
    have corrections : (u.corrections (relations.flatMap (Constraint.deltas u))).Perm
        (u.corrections (others.flatMap (Constraint.deltas u))) := ((perm.flatMap_right _).filter _).map _
    rw [relax_eq, relax_eq, u.correct_perm exact corrections]

end Relation

end PlaneSketch
