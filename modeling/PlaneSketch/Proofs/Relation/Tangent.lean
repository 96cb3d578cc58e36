import PlaneSketch.Proofs.Relation.Correction

/-! The corrections of a tangent line, one part at a time. The new radius always fits. The center and the line
are shifted along the direction from the foot of the perpendicular to the center, which is up where the
center is on the line: then only a level line is left at the right distance. -/
namespace PlaneSketch

namespace Line

noncomputable def across (l : Line ℝ) (v : Point ℝ) : ℝ := v.x * l.vector.y - v.y * l.vector.x

noncomputable def normal (l : Line ℝ) (p : Point ℝ) : Point ℝ := (p - l.project p).direction

noncomputable def offset (l : Line ℝ) (p : Point ℝ) (r : ℝ) : Point ℝ := (l.normal p).scale (l.distance p - r)

noncomputable def shift (l : Line ℝ) (v : Point ℝ) : Line ℝ := ⟨l.p0 + v, l.p1 + v⟩

variable {l : Line ℝ}

private theorem side_sub (l : Line ℝ) (p v : Point ℝ) : l.side (p - v) = l.side p - l.across v := by
  rw [side, side, across, Point.sub_x, Point.sub_y]
  ring

private theorem side_shift (l : Line ℝ) (p v : Point ℝ) : (l.shift v).side p = l.side (p - v) := by
  simp only [side, shift, vector_x, vector_y, Point.add_x, Point.add_y, Point.sub_x, Point.sub_y]
  ring

private theorem length_shift (l : Line ℝ) (v : Point ℝ) : (l.shift v).length = l.length := by
  rw [← norm_vector, ← norm_vector, Point.norm_eq, Point.norm_eq]
  simp only [shift, vector_x, vector_y, Point.add_x, Point.add_y, add_sub_add_right_eq_sub]

private theorem ends_shift (distinct : l.p0 ≠ l.p1) (v : Point ℝ) : (l.shift v).p0 ≠ (l.shift v).p1 := by
  rw [Ne, Point.eq_iff] at *
  simpa only [shift, Point.add_x, Point.add_y, add_left_inj] using distinct

private theorem distance_shift (distinct : l.p0 ≠ l.p1) (p v : Point ℝ) :
    (l.shift v).distance p = l.distance (p - v) := by
  rw [distance_eq (ends_shift distinct v), distance_eq distinct, side_shift, length_shift]

theorem side_eq (l : Line ℝ) (p : Point ℝ) : l.side p = l.distance p * l.across (l.normal p) := by
  obtain ⟨r, foot⟩ := l.exists_project p
  have level := l.side_along r
  have back := (p - l.project p).direction_scale_norm
  have distance : l.distance p = (p - l.project p).norm := rfl
  rw [Point.eq_iff, Point.scale_x, Point.scale_y, Point.sub_x, Point.sub_y] at back
  rw [← foot, side] at level
  rw [side, across, normal, distance]
  linear_combination level - l.vector.y * back.1 + l.vector.x * back.2

private theorem abs_across_normal (distinct : l.p0 ≠ l.p1) {p : Point ℝ} (off : ¬l.Contains p) :
    |l.across (l.normal p)| = l.length := by
  have apart : l.distance p ≠ 0 := fun none => off (distance_eq_zero.mp none)
  have positive : 0 ≤ l.distance p := Point.distance_nonneg _ _
  have measured := distance_eq distinct p
  rw [side_eq, abs_mul, abs_of_nonneg positive, eq_div_iff (length_pos distinct).ne'] at measured
  exact (mul_left_cancel₀ apart measured).symm

private theorem abs_across_up {p : Point ℝ} (on : l.Contains p) : |l.across (l.normal p)| = |l.vector.x| := by
  have none : (p - l.project p).norm = 0 := distance_eq_zero.mpr on
  rw [across, normal, Point.direction_eq, if_pos none, zero_mul, one_mul, zero_sub, abs_neg]

theorem distance_sub_offset (distinct : l.p0 ≠ l.p1) (p : Point ℝ) (r : ℝ) :
    l.distance (p - l.offset p r) = |r| * (|l.across (l.normal p)| / l.length) := by
  have scaled : l.across (l.offset p r) = l.across (l.normal p) * (l.distance p - r) := by
    rw [across, across, offset, Point.scale_x, Point.scale_y]
    ring
  have left : l.side (p - l.offset p r) = r * l.across (l.normal p) := by
    rw [side_sub, scaled, side_eq]
    ring
  rw [distance_eq distinct, left, abs_mul, mul_div_assoc]

private theorem abs_vector_x_le (l : Line ℝ) : |l.vector.x| ≤ l.length := by
  rw [← norm_vector, Point.norm_eq]
  exact Real.abs_le_sqrt (le_add_of_nonneg_right (sq_nonneg _))

private theorem abs_vector_x_eq (l : Line ℝ) : |l.vector.x| = l.length ↔ l.p0.y = l.p1.y := by
  rw [← sq_eq_sq₀ (abs_nonneg _) l.length_nonneg, sq_abs, length_sq, left_eq_add, sq_eq_zero_iff, vector_y,
    sub_eq_zero, eq_comm]

theorem missing_of_not_contains (distinct : l.p0 ≠ l.p1) {p : Point ℝ} (off : ¬l.Contains p) {r : ℝ}
    (positive : 0 ≤ r) : |l.distance (p - l.offset p r) - r| = 0 := by
  rw [abs_eq_zero, sub_eq_zero, distance_sub_offset distinct, abs_across_normal distinct off,
    div_self (length_pos distinct).ne', mul_one, abs_of_nonneg positive]

theorem missing_of_contains (distinct : l.p0 ≠ l.p1) {p : Point ℝ} (on : l.Contains p) {r : ℝ} (positive : 0 ≤ r) :
    |l.distance (p - l.offset p r) - r| = r * (1 - |l.vector.x| / l.length) := by
  have part : |l.vector.x| / l.length ≤ 1 := (div_le_one (length_pos distinct)).mpr l.abs_vector_x_le
  have missing : r * (|l.vector.x| / l.length) - r = -(r * (1 - |l.vector.x| / l.length)) := by ring
  rw [distance_sub_offset distinct, abs_across_up on, abs_of_nonneg positive, missing, abs_neg,
    abs_of_nonneg (mul_nonneg positive (sub_nonneg.mpr part))]

private theorem missing_eq_zero (distinct : l.p0 ≠ l.p1) (p : Point ℝ) {r : ℝ} (positive : 0 ≤ r) :
    |l.distance (p - l.offset p r) - r| = 0 ↔ ¬l.Contains p ∨ l.p0.y = l.p1.y ∨ r = 0 := by
  by_cases on : l.Contains p
  · rw [missing_of_contains distinct on positive, mul_eq_zero, sub_eq_zero, eq_comm (a := (1 : ℝ)),
      div_eq_one_iff_eq (length_pos distinct).ne', abs_vector_x_eq, or_comm]
    exact (or_iff_right (not_not.mpr on)).symm
  · exact iff_of_true (missing_of_not_contains distinct on positive) (.inl on)

end Line

namespace Relation

open Scalar Delta

variable {s : Store ℝ} {line : Line Variable} {circle : Circle Variable}

private theorem error_tangentLine (s : Store ℝ) (line : Line Variable) (circle : Circle Variable) :
    error s (.tangentLine line circle) = |(s.line line).distance (s.point circle.c) - s.value circle.r| := by
  rw [error, abs_real, Point.distance_comm]
  rfl

private theorem deltas_tangentLine (s : Store ℝ) (line : Line Variable) (circle : Circle Variable) :
    deltas s (.tangentLine line circle) =
      let l := s.line line
      let center := s.point circle.c
      let offset := l.offset center (s.value circle.r)
      toward s circle.r (l.distance center) :: towardPoint s circle.c (center - offset) ++
        towardPoint s line.p0 (l.p0 + offset) ++ towardPoint s line.p1 (l.p1 + offset) := by
  rw [deltas, Point.distance_comm]
  rfl

theorem error_applyTo_tangentLine (unlinked : s.Unlinked (owned (.tangentLine line circle))) :
    let l := s.line line
    let center := s.point circle.c
    let r := s.value circle.r
    let left part := error (s.applyTo part (deltas s (.tangentLine line circle))) (.tangentLine line circle)
    left [circle.r] = 0 ∧ left circle.c.toList = |l.distance (center - l.offset center r) - r| ∧
      left line.toList = |(l.shift (l.offset center r)).distance center - r| := by
  intro l center r left
  have nodup : (line.toList ++ (circle.c.toList ++ [circle.r])).Nodup := unlinked.nodup
  obtain ⟨lineCenter, lineRadius, centerRadius⟩ := disjoint_of_nodup nodup
  have own := unlinked_targets unlinked (List.cons_ne_nil _ _)
  have reach : toward s circle.r (l.distance center) ∈ deltas s (.tangentLine line circle) := by
    rw [deltas_tangentLine]
    exact List.mem_cons_self
  have moved : towardPoint s circle.c (center - l.offset center r) ⊆ deltas s (.tangentLine line circle) := by
    rw [deltas_tangentLine]
    exact List.subset_append_of_subset_left _ (List.subset_append_of_subset_left _ (List.subset_cons_self _ _))
  have first : towardPoint s line.p0 (l.shift (l.offset center r)).p0 ⊆ deltas s (.tangentLine line circle) := by
    rw [deltas_tangentLine]
    exact List.subset_append_of_subset_left _ (List.subset_append_right _ _)
  have second : towardPoint s line.p1 (l.shift (l.offset center r)).p1 ⊆ deltas s (.tangentLine line circle) := by
    rw [deltas_tangentLine]
    exact List.subset_append_right _ _
  simp only [left, error_tangentLine]
  refine ⟨?_, ?_, ?_⟩
  · rw [own.value_moved reach List.mem_cons_self, own.point_kept moved centerRadius,
      own.line_kept first second lineRadius, sub_self, abs_zero]
  · rw [own.value_kept reach (List.singleton_disjoint.mp centerRadius.symm),
      own.point_moved moved (List.Subset.refl _), own.line_kept first second lineCenter]
  · rw [own.value_kept reach (List.singleton_disjoint.mp lineRadius.symm), own.point_kept moved lineCenter.symm,
      own.line_moved first second (List.Subset.refl _)]

theorem error_applyTo_center_or_line (unlinked : s.Unlinked (owned (.tangentLine line circle)))
    (distinct : (s.line line).p0 ≠ (s.line line).p1) {part : List Variable}
    (listed : part ∈ [circle.c.toList, line.toList]) :
    let l := s.line line
    let c := s.circle circle
    error (s.applyTo part (deltas s (.tangentLine line circle))) (.tangentLine line circle) =
      |l.distance (c.c - l.offset c.c c.r) - c.r| := by
  obtain ⟨-, byCenter, byLine⟩ := error_applyTo_tangentLine unlinked
  simp only [List.mem_cons, List.not_mem_nil, or_false] at listed
  rcases listed with rfl | rfl
  · exact byCenter
  · exact byLine.trans (congrArg (fun distance => |distance - _|) (Line.distance_shift distinct _ _))

/-- The corrected radius always fits. A moved center, or a moved line, does if the center was off the line, and
misses what a step straight up misses if it was not. -/
theorem tangent_corrections {s : Store ℝ} {line : Line Variable} {circle : Circle Variable}
    (unlinked : s.Unlinked (owned (.tangentLine line circle)))
    (distinct : (s.line line).p0 ≠ (s.line line).p1) (radius : 0 ≤ s.value circle.r) :
    let relation := Relation.tangentLine line circle
    let deltas := Constraint.deltas s relation
    let l := s.line line
    let c := s.circle circle
    Constraint.error (s.applyTo [circle.r] deltas) relation = 0 ∧
      ∀ part ∈ [circle.c.toList, line.toList],
        let left := Constraint.error (s.applyTo part deltas) relation
        (¬l.Contains c.c → left = 0) ∧
          (l.Contains c.c → left = c.r * (1 - |l.vector.x| / l.length)) ∧
          (left = 0 ↔ ¬l.Contains c.c ∨ l.p0.y = l.p1.y ∨ c.r = 0) := by
  intro relation deltas l c
  refine ⟨(error_applyTo_tangentLine unlinked).1, ?_⟩
  intro part listed left
  have missing : left = |l.distance (c.c - l.offset c.c c.r) - c.r| :=
    error_applyTo_center_or_line unlinked distinct listed
  refine ⟨fun off => ?_, fun on => ?_, ?_⟩
  · exact missing.trans (Line.missing_of_not_contains distinct off radius)
  · exact missing.trans (Line.missing_of_contains distinct on radius)
  · rw [missing]
    exact Line.missing_eq_zero distinct c.c radius

section Tilted

def tiltedLine : Line Variable := ⟨⟨⟨0⟩, ⟨1⟩⟩, ⟨⟨2⟩, ⟨3⟩⟩⟩

def tiltedCircle : Circle Variable := ⟨⟨⟨4⟩, ⟨5⟩⟩, ⟨6⟩⟩

noncomputable def tiltedStore (stop center : Point ℝ) : Store ℝ :=
  ⟨#[⟨0, false⟩, ⟨0, false⟩, ⟨stop.x, false⟩, ⟨stop.y, false⟩, ⟨center.x, false⟩, ⟨center.y, false⟩, ⟨1, false⟩],
    #[0, 1, 2, 3, 4, 5, 6]⟩

theorem tangent_corrections_above :
    let s := tiltedStore ⟨3, 4⟩ ⟨0, 5⟩
    let relation := Relation.tangentLine tiltedLine tiltedCircle
    let deltas := Constraint.deltas s relation
    (s.Unlinked (owned relation) ∧ (s.line tiltedLine).p0 ≠ (s.line tiltedLine).p1 ∧ 0 ≤ s.value tiltedCircle.r) ∧
      Constraint.error (s.applyTo [tiltedCircle.r] deltas) relation = 0 ∧
      Constraint.error (s.applyTo tiltedCircle.c.toList deltas) relation = 0 ∧
      Constraint.error (s.applyTo tiltedLine.toList deltas) relation = 0 := by
  intro s relation deltas
  have unlinked : s.Unlinked (owned relation) := ⟨by decide, by decide⟩
  have distinct : (s.line tiltedLine).p0 ≠ (s.line tiltedLine).p1 := by
    intro same
    exact four_ne_zero (congrArg Point.y same).symm
  have radius : 0 ≤ s.value tiltedCircle.r := zero_le_one (α := ℝ)
  obtain ⟨byRadius, rest⟩ := tangent_corrections unlinked distinct radius
  have off : ¬(s.line tiltedLine).Contains (s.circle tiltedCircle).c := by
    rw [Line.contains_iff_side distinct]
    change ((0 : ℝ) - 0) * (4 - 0) - (5 - 0) * (3 - 0) ≠ 0
    norm_num
  refine ⟨⟨unlinked, distinct, radius⟩, byRadius, ?_, ?_⟩
  · exact (rest _ List.mem_cons_self).1 off
  · exact (rest _ (List.mem_cons_of_mem _ List.mem_cons_self)).1 off

/-- On an upright line the center, and the line, are moved along the line and stay at the distance zero. -/
theorem upright_misses :
    let s := tiltedStore ⟨0, 4⟩ ⟨0, 2⟩
    let relation := Relation.tangentLine tiltedLine tiltedCircle
    let deltas := Constraint.deltas s relation
    (s.Unlinked (owned relation) ∧ (s.line tiltedLine).p0 ≠ (s.line tiltedLine).p1 ∧ 0 ≤ s.value tiltedCircle.r) ∧
      Constraint.error (s.applyTo tiltedCircle.c.toList deltas) relation = 1 ∧
      Constraint.error (s.applyTo tiltedLine.toList deltas) relation = 1 := by
  intro s relation deltas
  have unlinked : s.Unlinked (owned relation) := ⟨by decide, by decide⟩
  have distinct : (s.line tiltedLine).p0 ≠ (s.line tiltedLine).p1 := by
    intro same
    exact four_ne_zero (congrArg Point.y same).symm
  have radius : 0 ≤ s.value tiltedCircle.r := zero_le_one (α := ℝ)
  have on : (s.line tiltedLine).Contains (s.circle tiltedCircle).c := by
    rw [Line.contains_iff_side distinct]
    change ((0 : ℝ) - 0) * (4 - 0) - (2 - 0) * (0 - 0) = 0
    norm_num
  have upright : (s.line tiltedLine).vector.x = 0 := sub_self (0 : ℝ)
  have missing := Line.missing_of_contains distinct on radius
  rw [upright, abs_zero, zero_div, sub_zero, mul_one] at missing
  refine ⟨⟨unlinked, distinct, radius⟩, ?_, ?_⟩
  · exact (error_applyTo_center_or_line unlinked distinct List.mem_cons_self).trans missing
  · exact (error_applyTo_center_or_line unlinked distinct
      (List.mem_cons_of_mem _ List.mem_cons_self)).trans missing

end Tilted

end Relation

end PlaneSketch
