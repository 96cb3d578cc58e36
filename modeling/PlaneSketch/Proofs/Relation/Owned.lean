import PlaneSketch.Relation
import Mathlib.Tactic.Tauto

/-! Relations propose changes of their own variables only. -/
namespace PlaneSketch.Relation

variable {α : Type} [Scalar α]

theorem target_toward (s : Store α) (v : Variable) (goal : α) : (Delta.toward s v goal).target = v := rfl

theorem targets_towardPoint (s : Store α) (p : Point Variable) (goal : Point α) :
    (Delta.towardPoint s p goal).map Delta.target = p.toList := rfl

theorem targets_rescale (s : Store α) (half : α) (line : Line Variable) :
    (rescale s half line).map Delta.target = line.toList := rfl

/-- The variables named by the proposals, in order. -/
def targets (s : Store α) (relation : Relation) : List Variable :=
  (deltas s relation).map Delta.target

theorem targets_colinearPoints (s : Store α) (points : List (Point Variable)) :
    targets s (.colinearPoints points) = if points.length < 3 then [] else points.flatMap Point.toList := by
  rw [targets, deltas]
  split
  · rfl
  · simp only [List.map_flatMap, targets_towardPoint]

theorem targets_equalValues (s : Store α) (vs : List Variable) : targets s (.equalValues vs) = vs := by
  simp [targets, deltas, target_toward, Function.comp_def]

theorem targets_equalLength (s : Store α) (lines : List (Line Variable)) :
    targets s (.equalLength lines) = lines.flatMap Line.toList := by
  simp only [targets, deltas, List.map_flatMap, targets_rescale]

/-- No relation proposes to change a variable that is not its own. -/
theorem targets_subset_owned (s : Store α) (relation : Relation) : targets s relation ⊆ owned relation := by
  cases relation with
  | midpoint point line =>
    intro v member
    have named : v ∈ point.toList ++ line.p1.toList ++ line.p0.toList := member
    simp only [owned, Line.toList, List.mem_append] at named ⊢
    tauto
  | equalValues vs =>
    rw [targets_equalValues]
    exact List.Subset.refl _
  | colinearPoints points =>
    rw [targets_colinearPoints]
    split
    · exact List.nil_subset _
    · exact List.Subset.refl _
  | pointOnCircle point circle => exact List.Subset.refl _
  | equalLength lines =>
    rw [targets_equalLength]
    exact List.Subset.refl _
  | tangentLine line circle =>
    intro v member
    have named : v ∈ [circle.r] ++ circle.c.toList ++ line.p0.toList ++ line.p1.toList := member
    simp only [owned, Line.toList, Circle.toList, List.mem_append] at named ⊢
    tauto

/-- A relation that proposes changes at all proposes one for each of its variables. -/
theorem perm_targets {s : Store α} {relation : Relation} (proposes : deltas s relation ≠ []) :
    (owned relation).Perm (targets s relation) := by
  cases relation with
  | midpoint point line =>
    have ends : (point.toList ++ (line.p0.toList ++ line.p1.toList)).Perm
        (point.toList ++ (line.p1.toList ++ line.p0.toList)) := List.perm_append_comm.append_left _
    exact ends
  | equalValues vs =>
    rw [targets_equalValues]
    exact .refl _
  | colinearPoints points =>
    have three : ¬points.length < 3 := by
      intro few
      exact proposes (if_pos few)
    rw [targets_colinearPoints, if_neg three]
    exact .refl _
  | pointOnCircle point circle => exact .refl _
  | equalLength lines =>
    rw [targets_equalLength]
    exact .refl _
  | tangentLine line circle =>
    have center : (circle.c.toList ++ [circle.r]).Perm ([circle.r] ++ circle.c.toList) := List.perm_append_comm
    exact List.perm_append_comm.trans (center.append_right line.toList)

theorem target_mem_owned (s : Store α) (relation : Relation) {delta : Delta α}
    (member : delta ∈ deltas s relation) : delta.target ∈ owned relation :=
  targets_subset_owned s relation (List.mem_map_of_mem member)

end PlaneSketch.Relation
