import PlaneSketch.Proofs.Solver.Frame

/-! What a pass does to variables that are proposed to change once each. -/
namespace PlaneSketch

private theorem filter_eq_singleton {κ μ : Type} [BEq μ] [LawfulBEq μ] {f : κ → μ} {xs : List κ}
    (apart : (xs.map f).Nodup) {x : κ} (member : x ∈ xs) : xs.filter (fun y => f y == f x) = [x] := by
  induction xs with
  | nil => cases member
  | cons y ys ih =>
    obtain ⟨new, apart⟩ := List.nodup_cons.mp apart
    rcases List.mem_cons.mp member with rfl | later
    · have others : ys.filter (fun y => f y == f x) = [] := by
        rw [List.filter_eq_nil_iff]
        intro z other same
        exact new (beq_iff_eq.mp same ▸ List.mem_map_of_mem other)
      simp [others]
    · have other : (f y == f x) = false := by
        rw [beq_eq_false_iff_ne]
        intro same
        exact new (same ▸ List.mem_map_of_mem later)
      simp [other, ih apart later]

namespace Store

variable {α : Type} [Scalar α] {s : Store α}

structure Untied (s : Store α) (vs : List Variable) : Prop where
  live : ∀ v ∈ vs, s.Live v
  free : ∀ v ∈ vs, s.isConstant v = false
  apart : (vs.map s.cellOf).Nodup

theorem Untied.perm {vs ws : List Variable} (untied : s.Untied vs) (perm : vs.Perm ws) : s.Untied ws where
  live v member := untied.live v (perm.mem_iff.mpr member)
  free v member := untied.free v (perm.mem_iff.mpr member)
  apart := (perm.map s.cellOf).nodup_iff.mp untied.apart

theorem value_correct {v : Variable} (live : s.Live v) (factor : α) (corrections : List (Nat × α))
    {amounts : List α} (found : amountsFor (s.cellOf v) corrections = amounts) (some : amounts ≠ []) :
    (s.correct factor corrections).value v = s.value v + stepOf factor amounts := by
  have inside : s.cellOf v < s.cells.size := live
  have cell : (s.correct factor corrections).cell v =
      { s.cell v with value := s.value v + stepOf factor amounts } := by
    rw [cell_eq, (s.sameNames_correct factor corrections).cellOf, getElem?_correct, found, value, cell_eq]
    simp [some, inside]
  rw [value, cell]

theorem Untied.correct {vs : List Variable} (untied : s.Untied vs) (factor : α)
    (corrections : List (Nat × α)) : (s.correct factor corrections).Untied vs where
  live v member := (s.sameNames_correct factor corrections).live (untied.live v member)
  free v member := by
    rw [isConstant_eq, constantAt_correct, (s.sameNames_correct factor corrections).cellOf,
      ← isConstant_eq]
    exact untied.free v member
  apart := by
    have cells : vs.map (s.correct factor corrections).cellOf = vs.map s.cellOf :=
      List.map_congr_left fun v _ => (s.sameNames_correct factor corrections).cellOf v
    rw [cells]
    exact untied.apart

omit [Scalar α] in
theorem amountsFor_of_apart {deltas : List (Delta α)} (apart : (deltas.map fun d => s.cellOf d.target).Nodup)
    {delta : Delta α} (member : delta ∈ deltas) :
    amountsFor (s.cellOf delta.target) (deltas.map fun d => (s.cellOf d.target, d.amount)) = [delta.amount] := by
  have own := filter_eq_singleton apart member
  rw [amountsFor, List.filter_map, List.map_map]
  exact congrArg (List.map _) own

theorem Untied.value_relaxed {deltas : List (Delta α)} (untied : s.Untied (deltas.map Delta.target))
    (finite : ∀ delta ∈ deltas, Scalar.isFinite delta.amount = true) (factor : α) {delta : Delta α}
    (member : delta ∈ deltas) :
    (s.correct factor (s.corrections deltas)).value delta.target =
      s.value delta.target + stepOf factor [delta.amount] := by
  have target : delta.target ∈ deltas.map Delta.target := List.mem_map_of_mem member
  have counts : s.corrections deltas = deltas.map fun d => (s.cellOf d.target, d.amount) := by
    rw [corrections, List.filter_eq_self.mpr]
    intro d proposed
    simp [finite d proposed, untied.free d.target (List.mem_map_of_mem proposed)]
  have apart := untied.apart
  rw [List.map_map] at apart
  have alone : amountsFor (s.cellOf delta.target) (s.corrections deltas) = [delta.amount] := by
    rw [counts]
    exact amountsFor_of_apart apart member
  exact value_correct (untied.live _ target) factor _ alone (List.cons_ne_nil _ _)

end Store

end PlaneSketch
