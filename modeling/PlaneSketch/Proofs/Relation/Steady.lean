import PlaneSketch.Relation
import PlaneSketch.Proofs.Store.Cells

/-! What the error of a relation depends on. Constancy matters to one kind only: constant coordinates
may put points on a line that would not be fitted to them otherwise. -/
namespace PlaneSketch

variable {α : Type} [Scalar α]

namespace Store

variable {s t : Store α}

theorem pinnedLine?_eq (s : Store α) (firstX firstY : Option (Point Variable))
    (points : List (Point Variable)) :
    s.pinnedLine? (firstX.map s.point) (firstY.map s.point) points =
      (s.pinnedPair? firstX firstY points).map fun pair => ⟨s.point pair.1, s.point pair.2⟩ := by
  induction points generalizing firstX firstY with
  | nil => rfl
  | cons p rest ih =>
    cases firstX <;> cases x : s.isConstant p.x <;> cases firstY <;> cases y : s.isConstant p.y <;>
      simp [pinnedLine?, pinnedPair?, x, y, ← ih]

private theorem pinnedPair?_congr (flags : t.isConstant = s.isConstant)
    (firstX firstY : Option (Point Variable)) (points : List (Point Variable)) :
    t.pinnedPair? firstX firstY points = s.pinnedPair? firstX firstY points := by
  induction points generalizing firstX firstY with
  | nil => rfl
  | cons p rest ih => simp only [pinnedPair?, flags, ih]

theorem point_congr (values : t.value = s.value) : t.point = s.point := by
  funext p
  rw [point, point, values]

private theorem fittedLine_congr (names : SameNames s t) (values : t.value = s.value)
    {points : List (Point Variable)}
    (pair : t.pinnedPair? none none points = s.pinnedPair? none none points) :
    t.fittedLine points = s.fittedLine points := by
  have place := point_congr values
  have pinned : t.pinnedLine? none none points = s.pinnedLine? none none points := by
    have drawn := t.pinnedLine?_eq none none points
    rw [pair, place] at drawn
    exact drawn.trans (s.pinnedLine?_eq none none points).symm
  have linked : t.linkedLine? points = s.linkedLine? points := by
    simp only [linkedLine?, sharedLine?, place, values, names.isLinked]
  rw [fittedLine, fittedLine, forcedLine?, forcedLine?, pinned, linked, place]

end Store

namespace Relation

variable {s t : Store α}

/-- The constant coordinates of one store put the points of the relation on the same line as those
of the other. -/
def Steady (s t : Store α) : Relation → Prop
  | .colinearPoints points =>
    points.length < 3 ∨ t.pinnedPair? none none points = s.pinnedPair? none none points
  | _ => True

instance (s t : Store α) : (relation : Relation) → Decidable (relation.Steady s t)
  | .colinearPoints _ => inferInstanceAs (Decidable (_ ∨ _))
  | .midpoint .. | .equalValues _ | .pointOnCircle .. | .equalLength _ | .tangentLine .. => isTrue trivial

theorem Steady.congr {s' t' : Store α} {relation : Relation} (steady : relation.Steady s t)
    (first : s'.isConstant = s.isConstant) (second : t'.isConstant = t.isConstant) :
    relation.Steady s' t' := by
  cases relation with
  | colinearPoints points =>
    refine steady.imp id fun pair => ?_
    rw [Store.pinnedPair?_congr first, Store.pinnedPair?_congr second, pair]
  | _ => trivial

theorem error_congr (names : Store.SameNames s t) (values : t.value = s.value) {relation : Relation}
    (steady : relation.Steady s t) : Constraint.error t relation = Constraint.error s relation := by
  change relation.error t = relation.error s
  have place := Store.point_congr values
  cases relation with
  -- The one kind that looks at flags; the others compute with values only.
  | colinearPoints points =>
    rw [error, error]
    rcases steady with few | pair
    · rw [if_pos few, if_pos few]
    · rw [Store.fittedLine_congr names values pair, place]
  | midpoint point line => rw [error, error, Store.line, Store.line, place, values]
  | equalValues vs => rw [error, error, values]
  | pointOnCircle point circle => rw [error, error, Store.circle, Store.circle, place, values]
  | equalLength lines => simp only [error, Store.line, values]
  | tangentLine line circle => simp only [error, Store.line, Store.circle, values]

end Relation

end PlaneSketch
