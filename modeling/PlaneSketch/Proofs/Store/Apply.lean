import PlaneSketch.Proofs.Geometry.Line
import PlaneSketch.Proofs.Solver.Pass
import PlaneSketch.Proofs.Store.Translate

/-! Making proposed changes as they are, without taking means or scaling: all of them, or those of some
variables only while the others stay put. -/
namespace PlaneSketch.Store

variable {α : Type}

/-- Variables of the store, no two of them linked. -/
structure Unlinked (s : Store α) (vs : List Variable) : Prop where
  live : ∀ v ∈ vs, s.Live v
  apart : (vs.map s.cellOf).Nodup

theorem Untied.unlinked [Scalar α] {s : Store α} {vs : List Variable} (untied : s.Untied vs) : s.Unlinked vs :=
  ⟨untied.live, untied.apart⟩

namespace Unlinked

variable {s : Store α} {vs ws : List Variable}

theorem perm (unlinked : s.Unlinked vs) (perm : vs.Perm ws) : s.Unlinked ws where
  live v member := unlinked.live v (perm.mem_iff.mpr member)
  apart := (perm.map s.cellOf).nodup_iff.mp unlinked.apart

private theorem sublist (unlinked : s.Unlinked vs) (sublist : ws.Sublist vs) : s.Unlinked ws where
  live v member := unlinked.live v (sublist.subset member)
  apart := unlinked.apart.sublist (sublist.map s.cellOf)

theorem nodup (unlinked : s.Unlinked vs) : vs.Nodup := unlinked.apart.of_map s.cellOf

private theorem cellOf_ne (unlinked : s.Unlinked vs) {v w : Variable} (first : v ∈ vs) (second : w ∈ vs)
    (distinct : v ≠ w) : s.cellOf v ≠ s.cellOf w := by
  intro same
  exact distinct (List.inj_on_of_nodup_map unlinked.apart first second same)

end Unlinked

variable [Scalar α]

def apply (s : Store α) (deltas : List (Delta α)) : Store α :=
  deltas.foldl (fun s delta => s.shift delta.target delta.amount) s

def applyTo (s : Store α) (part : List Variable) (deltas : List (Delta α)) : Store α :=
  s.apply (deltas.filter fun delta => decide (delta.target ∈ part))

variable {s : Store α} {deltas : List (Delta α)}

private theorem apply_eq (s : Store α) (deltas : List (Delta α)) :
    s.apply deltas = s.shiftAll (deltas.map fun delta => (s.cellOf delta.target, delta.amount)) := by
  induction deltas using List.reverseRecOn with
  | nil => rfl
  | append_singleton deltas delta ih =>
    rw [apply, List.foldl_concat, ← apply, ih, List.map_append, shiftAll_append, shift,
      (s.sameNames_shiftAll _).cellOf]
    rfl

theorem valueAt_apply (s : Store α) (deltas : List (Delta α)) (v : Variable) :
    (s.apply deltas).valueAt ((s.apply deltas).cellOf v) = (s.valueAt (s.cellOf v)).map fun x =>
      (amountsFor (s.cellOf v) (deltas.map fun delta => (s.cellOf delta.target, delta.amount))).foldl (· + ·) x := by
  rw [apply_eq, (s.sameNames_shiftAll _).cellOf, valueAt_shiftAll]

private theorem value_apply_of_apart {v : Variable}
    (apart : ∀ delta ∈ deltas, s.cellOf delta.target ≠ s.cellOf v) :
    (s.apply deltas).value v = s.value v := by
  have none : amountsFor (s.cellOf v) (deltas.map fun delta => (s.cellOf delta.target, delta.amount)) = [] := by
    apply amountsFor_eq_nil
    rw [List.forall_mem_map]
    exact apart
  rw [value_eq_valueAt, valueAt_apply, none, value_eq_valueAt]
  exact congrArg (Option.getD · 0) (Option.map_id' ..)

namespace Unlinked

private theorem value_apply (unlinked : s.Unlinked (deltas.map Delta.target)) {delta : Delta α}
    (member : delta ∈ deltas) : (s.apply deltas).value delta.target = s.value delta.target + delta.amount := by
  have apart := unlinked.apart
  rw [List.map_map] at apart
  obtain ⟨x, holds⟩ := (unlinked.live delta.target (List.mem_map_of_mem member)).exists_valueAt
  rw [value_eq_valueAt, valueAt_apply, amountsFor_of_apart apart member, value_eq_valueAt, holds]
  rfl

theorem value_applyTo (unlinked : s.Unlinked (deltas.map Delta.target)) (part : List Variable) {delta : Delta α}
    (member : delta ∈ deltas) :
    (s.applyTo part deltas).value delta.target =
      if delta.target ∈ part then s.value delta.target + delta.amount else s.value delta.target := by
  rw [applyTo]
  split
  case isTrue inside =>
    have chosen : delta ∈ deltas.filter fun delta => decide (delta.target ∈ part) :=
      List.mem_filter.mpr ⟨member, decide_eq_true inside⟩
    exact (unlinked.sublist (List.filter_sublist.map _)).value_apply chosen
  case isFalse outside =>
    apply value_apply_of_apart
    intro other chosen
    obtain ⟨listed, inside⟩ := List.mem_filter.mp chosen
    apply unlinked.cellOf_ne (List.mem_map_of_mem listed) (List.mem_map_of_mem member)
    rintro same
    exact outside (same ▸ of_decide_eq_true inside)

end Unlinked

theorem applyTo_of_forall {part : List Variable} (own : ∀ delta ∈ deltas, delta.target ∈ part) :
    s.applyTo part deltas = s.apply deltas := by
  rw [applyTo, List.filter_eq_self.mpr]
  exact fun delta member => decide_eq_true (own delta member)

section Exact

variable {s : Store ℝ} {deltas : List (Delta ℝ)} {part : List Variable} {v : Variable} {p : Point Variable}

namespace Unlinked

variable (unlinked : s.Unlinked (deltas.map Delta.target))
include unlinked

theorem value_moved {goal : ℝ} (proposed : Delta.toward s v goal ∈ deltas) (inside : v ∈ part) :
    (s.applyTo part deltas).value v = goal := by
  have moved := unlinked.value_applyTo part proposed
  rw [if_pos (show (Delta.toward s v goal).target ∈ part from inside)] at moved
  exact moved.trans (add_sub_cancel _ _)

theorem value_kept {goal : ℝ} (proposed : Delta.toward s v goal ∈ deltas) (outside : v ∉ part) :
    (s.applyTo part deltas).value v = s.value v := by
  have kept := unlinked.value_applyTo part proposed
  rwa [if_neg (show (Delta.toward s v goal).target ∉ part from outside)] at kept

theorem point_moved {goal : Point ℝ} (proposed : Delta.towardPoint s p goal ⊆ deltas) (inside : p.toList ⊆ part) :
    (s.applyTo part deltas).point p = goal := by
  obtain ⟨x, y⟩ := List.cons_subset.mp proposed
  obtain ⟨xInside, yInside⟩ := List.cons_subset.mp inside
  exact Point.eq_iff.mpr ⟨unlinked.value_moved x xInside,
    unlinked.value_moved (List.cons_subset.mp y).1 (List.cons_subset.mp yInside).1⟩

theorem point_kept {goal : Point ℝ} (proposed : Delta.towardPoint s p goal ⊆ deltas)
    (outside : p.toList.Disjoint part) : (s.applyTo part deltas).point p = s.point p := by
  obtain ⟨x, y⟩ := List.cons_subset.mp proposed
  obtain ⟨xOutside, yOutside⟩ := List.disjoint_cons_left.mp outside
  exact Point.eq_iff.mpr ⟨unlinked.value_kept x xOutside,
    unlinked.value_kept (List.cons_subset.mp y).1 (List.disjoint_cons_left.mp yOutside).1⟩

variable {l : Line Variable} {goal : Line ℝ} (first : Delta.towardPoint s l.p0 goal.p0 ⊆ deltas)
    (second : Delta.towardPoint s l.p1 goal.p1 ⊆ deltas)
include first second

theorem line_moved (inside : l.toList ⊆ part) : (s.applyTo part deltas).line l = goal := by
  obtain ⟨start, stop⟩ := List.append_subset.mp inside
  exact Line.eq_iff.mpr ⟨unlinked.point_moved first start, unlinked.point_moved second stop⟩

theorem line_kept (outside : l.toList.Disjoint part) : (s.applyTo part deltas).line l = s.line l := by
  obtain ⟨start, stop⟩ := List.disjoint_append_left.mp outside
  exact Line.eq_iff.mpr ⟨unlinked.point_kept first start, unlinked.point_kept second stop⟩

end Unlinked

end Exact

end PlaneSketch.Store
