import PlaneSketch.Proofs.Relation.Satisfied
import PlaneSketch.Proofs.Relation.Owned
import PlaneSketch.Proofs.Store.Apply

/-! Where the corrections of a relation lead. A relation between a few figures proposes a change for each of
its parts that would satisfy it if the other parts stayed; one that wants many values or lengths to be equal
proposes changes that satisfy it together. -/
namespace PlaneSketch

theorem disjoint_of_nodup {κ : Type} {first second third : List κ} (nodup : (first ++ (second ++ third)).Nodup) :
    first.Disjoint second ∧ first.Disjoint third ∧ second.Disjoint third := by
  obtain ⟨-, rest, apart⟩ := List.nodup_append'.mp nodup
  obtain ⟨left, right⟩ := List.disjoint_append_right.mp apart
  exact ⟨left, right, (List.nodup_append'.mp rest).2.2⟩

namespace Relation

open Scalar Delta

variable {s : Store ℝ}

theorem unlinked_targets {relation : Relation} (unlinked : s.Unlinked (owned relation))
    (proposes : deltas s relation ≠ []) : s.Unlinked ((deltas s relation).map Delta.target) :=
  unlinked.perm (perm_targets proposes)

section Midpoint

variable {point : Point Variable} {line : Line Variable}

private theorem midpoint_reflect (p q : Point ℝ) : p.midpoint (p.reflect q) = q := by
  rw [Point.eq_iff, Point.midpoint_x, Point.midpoint_y, Point.reflect_x, Point.reflect_y]
  constructor <;> ring

private theorem midpoint_comm (p q : Point ℝ) : p.midpoint q = q.midpoint p := by
  rw [Point.eq_iff, Point.midpoint_x, Point.midpoint_y, Point.midpoint_x, Point.midpoint_y]
  constructor <;> ring

private theorem error_applyTo_midpoint (unlinked : s.Unlinked (owned (.midpoint point line)))
    {part : List Variable} (listed : part ∈ [point.toList, line.p0.toList, line.p1.toList]) :
    error (s.applyTo part (deltas s (.midpoint point line))) (.midpoint point line) = 0 := by
  have own := unlinked_targets unlinked (List.cons_ne_nil _ _)
  obtain ⟨start, stop, ends⟩ := disjoint_of_nodup unlinked.nodup
  have middle : towardPoint s point _ ⊆ deltas s (.midpoint point line) :=
    List.subset_append_of_subset_left _ (List.subset_append_left _ _)
  have second : towardPoint s line.p1 _ ⊆ deltas s (.midpoint point line) :=
    List.subset_append_of_subset_left _ (List.subset_append_right _ _)
  have first : towardPoint s line.p0 _ ⊆ deltas s (.midpoint point line) := List.subset_append_right _ _
  rw [error, Point.distance_eq_zero]
  change Store.point _ point = (Store.point _ line.p0).midpoint (Store.point _ line.p1)
  simp only [List.mem_cons, List.not_mem_nil, or_false] at listed
  -- The point moves between the ends, or an end to where the point is halfway from the other.
  rcases listed with rfl | rfl | rfl
  · rw [own.point_moved middle (List.Subset.refl _), own.point_kept first start.symm,
      own.point_kept second stop.symm]
    rfl
  · rw [own.point_moved first (List.Subset.refl _), own.point_kept middle start,
      own.point_kept second ends.symm, midpoint_comm]
    exact (midpoint_reflect _ _).symm
  · rw [own.point_moved second (List.Subset.refl _), own.point_kept middle stop, own.point_kept first ends]
    exact (midpoint_reflect _ _).symm

end Midpoint

section PointOnCircle

variable {point : Point Variable} {circle : Circle Variable}

private theorem error_applyTo_pointOnCircle (unlinked : s.Unlinked (owned (.pointOnCircle point circle)))
    (radius : 0 ≤ s.value circle.r) {part : List Variable}
    (listed : part ∈ [point.toList, circle.c.toList, [circle.r]]) :
    error (s.applyTo part (deltas s (.pointOnCircle point circle))) (.pointOnCircle point circle) = 0 := by
  have own := unlinked_targets unlinked (List.cons_ne_nil _ _)
  obtain ⟨pointCenter, pointRadius, centerRadius⟩ := disjoint_of_nodup unlinked.nodup
  have onto : towardPoint s point _ ⊆ deltas s (.pointOnCircle point circle) :=
    List.subset_append_of_subset_left _ (List.subset_append_left _ _)
  have center : towardPoint s circle.c _ ⊆ deltas s (.pointOnCircle point circle) :=
    List.subset_append_of_subset_left _ (List.subset_append_right _ _)
  have reach : toward s circle.r _ ∈ deltas s (.pointOnCircle point circle) :=
    List.mem_append_right _ List.mem_cons_self
  rw [error, Circle.distance, abs_real, abs_eq_zero, sub_eq_zero]
  change (Store.point _ circle.c).distance (Store.point _ point) = Store.value _ circle.r
  simp only [List.mem_cons, List.not_mem_nil, or_false] at listed
  rcases listed with rfl | rfl | rfl
  · rw [own.point_moved onto (List.Subset.refl _), own.point_kept center pointCenter.symm,
      own.value_kept reach (List.singleton_disjoint.mp pointRadius.symm)]
    exact (Point.distance_toward _ _ _).trans (abs_of_nonneg radius)
  · rw [own.point_moved center (List.Subset.refl _), own.point_kept onto pointCenter,
      own.value_kept reach (List.singleton_disjoint.mp centerRadius.symm), Point.distance_comm]
    exact (Point.distance_toward _ _ _).trans (abs_of_nonneg radius)
  · rw [own.value_moved reach List.mem_cons_self, own.point_kept center centerRadius, own.point_kept onto pointRadius]
    rfl

end PointOnCircle

private theorem error_apply_equalValues {vs : List Variable} (unlinked : s.Unlinked vs) :
    error (s.apply (deltas s (.equalValues vs))) (.equalValues vs) = 0 := by
  have own : s.Unlinked ((deltas s (.equalValues vs)).map Delta.target) := by
    rw [← targets, targets_equalValues]
    exact unlinked
  have reached : ∀ v ∈ vs, (s.apply (deltas s (.equalValues vs))).value v = mean (vs.map s.value) := by
    intro v member
    rw [← Store.applyTo_of_forall fun delta => target_mem_owned s (.equalValues vs)]
    exact own.value_moved (List.mem_map_of_mem member) member
  rw [error, spread_eq_zero]
  simp only [List.forall_mem_map]
  intro v here w there
  rw [reached v here, reached w there]

theorem length_rescaled (center v : Point ℝ) {half : ℝ} (positive : 0 ≤ half) :
    Line.length ⟨center - v.direction.scale half, center + v.direction.scale half⟩ = 2 * half := by
  rw [← sq_eq_sq₀ (Line.length_nonneg _) (by positivity), Line.length_sq, Line.vector_x, Line.vector_y]
  simp only [Point.add_x, Point.add_y, Point.sub_x, Point.sub_y, Point.scale_x, Point.scale_y]
  linear_combination 4 * half ^ 2 * v.direction_sq

private theorem error_apply_equalLength {lines : List (Line Variable)}
    (unlinked : s.Unlinked (lines.flatMap Line.toList)) :
    error (s.apply (deltas s (.equalLength lines))) (.equalLength lines) = 0 := by
  set middle := mean (lines.map fun l => (s.line l).length) with middle_eq
  have half : 0 ≤ middle / 2 := div_nonneg (mean_length_nonneg s lines) zero_le_two
  have own : s.Unlinked ((deltas s (.equalLength lines)).map Delta.target) := by
    rw [← targets, targets_equalLength]
    exact unlinked
  have reached : ∀ l ∈ lines, ((s.apply (deltas s (.equalLength lines))).line l).length = middle := by
    intro l member
    have rescaled : rescale s (middle / 2) l ⊆ deltas s (.equalLength lines) :=
      fun delta found => List.mem_flatMap.mpr ⟨l, member, found⟩
    have inside : l.toList ⊆ owned (.equalLength lines) := fun v found => List.mem_flatMap.mpr ⟨l, member, found⟩
    obtain ⟨firstInside, secondInside⟩ := List.append_subset.mp inside
    obtain ⟨first, second⟩ := List.append_subset.mp rescaled
    rw [← Store.applyTo_of_forall fun delta => target_mem_owned s (.equalLength lines)]
    have start := own.point_moved first firstInside
    have stop := own.point_moved second secondInside
    have length := length_rescaled ((s.line l).p0.midpoint (s.line l).p1) (s.line l).vector half
    rw [← start, ← stop, mul_div_cancel₀ _ (two_ne_zero (α := ℝ))] at length
    exact length
  rw [error_equalLength]
  intro l member
  rw [reached l member]
  refine (mean_eq_of_forall ?_ ?_).symm
  · rw [List.forall_mem_map]
    exact reached
  · exact List.ne_nil_of_mem (List.mem_map_of_mem member)

/-- Each part of a midpoint relation and of a point on a circle can be put right alone, while the others
stay; variables and lines that are to be equal are so after one correction of all of them. -/
theorem corrections_reach (s : Store ℝ) :
    (∀ (point : Point Variable) (line : Line Variable),
      let relation := Relation.midpoint point line
      s.Unlinked (owned relation) → ∀ part ∈ [point.toList, line.p0.toList, line.p1.toList],
        Constraint.error (s.applyTo part (Constraint.deltas s relation)) relation = 0) ∧
    (∀ (point : Point Variable) (circle : Circle Variable),
      let relation := Relation.pointOnCircle point circle
      s.Unlinked (owned relation) → 0 ≤ s.value circle.r →
        ∀ part ∈ [point.toList, circle.c.toList, [circle.r]],
          Constraint.error (s.applyTo part (Constraint.deltas s relation)) relation = 0) ∧
    (∀ vs : List Variable,
      let relation := Relation.equalValues vs
      s.Unlinked (owned relation) →
        Constraint.error (s.apply (Constraint.deltas s relation)) relation = 0) ∧
    ∀ lines : List (Line Variable),
      let relation := Relation.equalLength lines
      s.Unlinked (owned relation) →
        Constraint.error (s.apply (Constraint.deltas s relation)) relation = 0 := by
  refine ⟨?_, ?_, ?_, ?_⟩
  · intro point line relation unlinked part listed
    exact error_applyTo_midpoint unlinked listed
  · intro point circle relation unlinked radius part listed
    exact error_applyTo_pointOnCircle unlinked radius listed
  · intro vs relation unlinked
    exact error_apply_equalValues unlinked
  · intro lines relation unlinked
    exact error_apply_equalLength unlinked

section Heap

noncomputable def heapStore (r : ℝ) (stop : Point ℝ) : Store ℝ :=
  ⟨#[⟨0, false⟩, ⟨0, false⟩, ⟨0, false⟩, ⟨0, false⟩, ⟨0, false⟩, ⟨0, false⟩, ⟨0, false⟩, ⟨0, true⟩, ⟨r, false⟩,
    ⟨0, false⟩, ⟨0, false⟩, ⟨stop.x, true⟩, ⟨stop.y, false⟩], #[0, 1, 2, 3, 4, 5, 6, 7, 8, 9, 10, 11, 12]⟩

def heapPoint : Point Variable := ⟨⟨0⟩, ⟨1⟩⟩

def heapShort : Line Variable := ⟨⟨⟨2⟩, ⟨3⟩⟩, ⟨⟨4⟩, ⟨5⟩⟩⟩

def heapCircle : Circle Variable := ⟨⟨⟨6⟩, ⟨7⟩⟩, ⟨8⟩⟩

def heapLong : Line Variable := ⟨⟨⟨9⟩, ⟨10⟩⟩, ⟨⟨11⟩, ⟨12⟩⟩⟩

theorem corrections_reach_heap :
    let s := heapStore 2 ⟨3, 4⟩
    let halves := Relation.midpoint heapPoint heapLong
    let around := Relation.pointOnCircle heapPoint heapCircle
    let values := Relation.equalValues [⟨8⟩, ⟨11⟩, ⟨12⟩]
    let lengths := Relation.equalLength [heapShort, heapLong]
    (s.Unlinked (owned halves) ∧
      Constraint.error (s.applyTo heapLong.p1.toList (Constraint.deltas s halves)) halves = 0) ∧
    (s.Unlinked (owned around) ∧ 0 ≤ s.value heapCircle.r ∧
      Constraint.error (s.applyTo heapPoint.toList (Constraint.deltas s around)) around = 0) ∧
    (s.Unlinked (owned values) ∧ Constraint.error (s.apply (Constraint.deltas s values)) values = 0) ∧
    (s.Unlinked (owned lengths) ∧ Constraint.error (s.apply (Constraint.deltas s lengths)) lengths = 0) := by
  intro s halves around values lengths
  obtain ⟨midpoint, onCircle, equalValues, equalLength⟩ := corrections_reach s
  have halvesApart : s.Unlinked (owned halves) := ⟨by decide, by decide⟩
  have aroundApart : s.Unlinked (owned around) := ⟨by decide, by decide⟩
  have valuesApart : s.Unlinked (owned values) := ⟨by decide, by decide⟩
  have lengthsApart : s.Unlinked (owned lengths) := ⟨by decide, by decide⟩
  have radius : 0 ≤ s.value heapCircle.r := zero_le_two (α := ℝ)
  refine ⟨⟨halvesApart, ?_⟩, ⟨aroundApart, radius, ?_⟩, ⟨valuesApart, ?_⟩, lengthsApart, ?_⟩
  · exact midpoint heapPoint heapLong halvesApart _ (List.mem_cons_of_mem _ (List.mem_cons_of_mem _ List.mem_cons_self))
  · exact onCircle heapPoint heapCircle aroundApart radius _ List.mem_cons_self
  · exact equalValues _ valuesApart
  · exact equalLength _ lengthsApart

end Heap

end Relation

end PlaneSketch
