import PlaneSketch.Proofs.Geometry.Regression
import PlaneSketch.Proofs.Relation.Mirror
import PlaneSketch.Proofs.Relation.Satisfied
import PlaneSketch.Proofs.Relation.Steady

/-! Points that are on one line already. A line that pins or links force on them goes through two of them, and
so through all, unless the two are in one place: then it has no length, and leaves out whatever is elsewhere. -/
namespace PlaneSketch

private theorem findSome?_eq_bind_find? {β γ : Type} {f : β → Option γ} {p : β → Bool}
    (found : ∀ x, (f x).isSome = p x) (xs : List β) : xs.findSome? f = (xs.find? p).bind f := by
  induction xs with
  | nil => rfl
  | cons x xs ih =>
    rw [List.findSome?_cons, List.find?_cons, ← found x]
    cases image : f x with
    | none => exact ih
    | some y => exact image.symm

namespace Point

variable {points : List (Point ℝ)}

theorem mean_eq (nonempty : points ≠ []) :
    mean points = ⟨Relation.mean (points.map Point.x), Relation.mean (points.map Point.y)⟩ := by
  rw [mean_eq_sums nonempty]
  simp [Relation.mean]

private theorem mean_x_of_forall (nonempty : points ≠ []) {x : ℝ} (same : ∀ p ∈ points, p.x = x) :
    (mean points).x = x := by
  rw [mean_eq nonempty]
  exact Relation.mean_eq_of_forall (List.forall_mem_map.mpr same) (by simpa using nonempty)

private theorem mean_y_of_forall (nonempty : points ≠ []) {y : ℝ} (same : ∀ p ∈ points, p.y = y) :
    (mean points).y = y := by
  rw [mean_eq nonempty]
  exact Relation.mean_eq_of_forall (List.forall_mem_map.mpr same) (by simpa using nonempty)

end Point

namespace Line

variable {l : Line ℝ} {p : Point ℝ}

private theorem Contains.x_eq (on : l.Contains p) (upright : l.p0.x = l.p1.x) : p.x = l.p0.x := by
  obtain ⟨r, rfl⟩ := on
  rw [along_x, ← upright, sub_self, zero_mul, add_zero]

private theorem Contains.y_eq (on : l.Contains p) (level : l.p0.y = l.p1.y) : p.y = l.p0.y := by
  obtain ⟨r, rfl⟩ := on
  rw [along_y, ← level, sub_self, zero_mul, add_zero]

end Line

namespace Store

section Pairs

variable {α : Type} [Scalar α] {s : Store α} {points : List (Point Variable)} {pair : Point Variable × Point Variable}

/-- The points have a coordinate in common. -/
def shares (s : Store α) (p q : Point Variable) : Bool := s.isLinked p.x q.x || s.isLinked p.y q.y

def linkedPair? (s : Store α) (points : List (Point Variable)) : Option (Point Variable × Point Variable) :=
  (orderedPairs points).find? fun pair => s.shares pair.1 pair.2

/-- The points that force a line on all. -/
def forcingPair? (s : Store α) (points : List (Point Variable)) : Option (Point Variable × Point Variable) :=
  (s.pinnedPair? none none points).or (s.linkedPair? points)

theorem isSome_sharedLine? (center : Point α) (p q : Point Variable) :
    (s.sharedLine? center p q).isSome = s.shares p q := by
  rw [sharedLine?, shares]
  cases s.isLinked p.x q.x <;> cases s.isLinked p.y q.y <;> rfl

theorem linkedLine?_eq (s : Store α) (points : List (Point Variable)) :
    s.linkedLine? points = (s.linkedPair? points).bind fun (p, q) =>
      s.sharedLine? (Point.mean (points.map s.point)) p q :=
  findSome?_eq_bind_find? (fun (p, q) => isSome_sharedLine? _ p q) _

theorem forcedLine?_eq (s : Store α) (points : List (Point Variable)) :
    s.forcedLine? points =
      ((s.pinnedPair? none none points).map fun (p, q) => ⟨s.point p, s.point q⟩).or
        ((s.linkedPair? points).bind fun (p, q) => s.sharedLine? (Point.mean (points.map s.point)) p q) := by
  rw [forcedLine?, linkedLine?_eq]
  exact congrArg (Option.or · _) (s.pinnedLine?_eq none none points)

variable {R : Point Variable → Point Variable → Prop}

private theorem related_of_noted {p : Point Variable} {rest : List (Point Variable)}
    {first : Option (Point Variable)}
    (flag : Bool) (old : ∀ f ∈ first, ∀ q ∈ p :: rest, R f q) (new : ∀ q ∈ rest, R p q) :
    ∀ f ∈ if flag then some p else first, ∀ q ∈ rest, R f q := by
  intro f member q listed
  split at member
  · obtain rfl := Option.some.inj member
    exact new q listed
  · exact old f member q (List.mem_cons_of_mem _ listed)

private theorem related_of_pinnedPair? {firstX firstY : Option (Point Variable)}
    (x : ∀ f ∈ firstX, ∀ q ∈ points, R f q) (y : ∀ f ∈ firstY, ∀ q ∈ points, R f q) (all : points.Pairwise R)
    (found : s.pinnedPair? firstX firstY points = some pair) : R pair.1 pair.2 := by
  fun_induction pinnedPair? s firstX firstY points with
  | case1 => cases found
  | case2 =>
    obtain rfl := Option.some.inj found
    exact x _ rfl _ List.mem_cons_self
  | case3 =>
    obtain rfl := Option.some.inj found
    exact y _ rfl _ List.mem_cons_self
  | case4 p rest firstX _ firstY _ ih =>
    obtain ⟨here, later⟩ := List.pairwise_cons.mp all
    exact ih (related_of_noted _ x here) (related_of_noted _ y here) later found

theorem related_of_mem_orderedPairs {β : Type} {R : β → β → Prop} (symm : ∀ x y, R x y → R y x) {xs : List β}
    (all : xs.Pairwise R) {pair : β × β} (member : pair ∈ orderedPairs xs) : R pair.1 pair.2 := by
  obtain ⟨i, j, apart, first, second⟩ := mem_orderedPairs.mp member
  obtain ⟨below, x_eq⟩ := List.getElem?_eq_some_iff.mp first
  obtain ⟨above, y_eq⟩ := List.getElem?_eq_some_iff.mp second
  rw [← x_eq, ← y_eq]
  rcases Nat.lt_or_gt_of_ne apart with before | after
  · exact List.pairwise_iff_getElem.mp all i j below above before
  · exact symm _ _ (List.pairwise_iff_getElem.mp all j i above below after)

theorem related_of_forcingPair? (symm : ∀ p q, R p q → R q p) (all : points.Pairwise R)
    (found : s.forcingPair? points = some pair) : R pair.1 pair.2 := by
  rw [forcingPair?, Option.or_eq_some_iff] at found
  rcases found with pinned | ⟨-, linked⟩
  · exact related_of_pinnedPair? (by simp) (by simp) all pinned
  · exact related_of_mem_orderedPairs symm all (List.mem_of_find?_eq_some linked)

theorem mem_of_forcingPair? (found : s.forcingPair? points = some pair) : pair.1 ∈ points ∧ pair.2 ∈ points := by
  have all : points.Pairwise fun p q => p ∈ points ∧ q ∈ points :=
    List.pairwise_of_forall_mem_list fun p first q second => ⟨first, second⟩
  exact related_of_forcingPair? (fun p q both => both.symm) all found

end Pairs

variable {s : Store ℝ} {points : List (Point Variable)} {p q : Point Variable} {center : Point ℝ} {l : Line ℝ}

/-- The lines that a pair of points can force if the mean of all is at the center. -/
inductive Forced (s : Store ℝ) (center : Point ℝ) (p q : Point Variable) : Line ℝ → Prop
  | pinned : Forced s center p q ⟨s.point p, s.point q⟩
  | upright (shared : (s.point p).x = (s.point q).x) :
    Forced s center p q (.ofCoords center.x (s.point p).y center.x (s.point q).y)
  | level (shared : (s.point p).y = (s.point q).y) :
    Forced s center p q (.ofCoords (s.point p).x center.y (s.point q).x center.y)

private theorem Forced.of_sharedLine? (found : s.sharedLine? center p q = some l) :
    Forced s center p q l := by
  rw [sharedLine?] at found
  split_ifs at found with x y
  · obtain rfl := Option.some.inj found
    exact .upright (value_of_isLinked x)
  · obtain rfl := Option.some.inj found
    exact .level (value_of_isLinked y)

theorem forced_fittedLine (found : s.forcingPair? points = some (p, q)) :
    Forced s (Point.mean (points.map s.point)) p q (s.fittedLine points) := by
  rw [forcingPair?, Option.or_eq_some_iff] at found
  rcases found with pinned | ⟨unpinned, linked⟩
  · rw [fittedLine, forcedLine?_eq, pinned]
    exact .pinned
  · have shared := List.find?_some linked
    dsimp only at shared
    rw [← isSome_sharedLine? (Point.mean (points.map s.point)), Option.isSome_iff_exists] at shared
    obtain ⟨l, shared⟩ := shared
    have line : s.fittedLine points = l := by
      rw [fittedLine, forcedLine?_eq, unpinned, linked]
      exact congrArg (Option.getD · _) shared
    exact line ▸ .of_sharedLine? shared

theorem fittedLine_of_none (free : s.forcingPair? points = none) :
    s.fittedLine points = leastSquares (points.map s.point) := by
  obtain ⟨unpinned, unlinked⟩ := Option.or_eq_none_iff.mp free
  rw [fittedLine, forcedLine?_eq, unpinned, unlinked]
  rfl

private theorem fittedLine_of_some (found : s.forcingPair? points = some (p, q))
    (on : ∀ r ∈ points, Line.Contains ⟨s.point p, s.point q⟩ (s.point r)) :
    s.fittedLine points = ⟨s.point p, s.point q⟩ := by
  have forced := forced_fittedLine found
  have nonempty : points.map s.point ≠ [] := List.ne_nil_of_mem (List.mem_map_of_mem (mem_of_forcingPair? found).1)
  generalize s.fittedLine points = l at forced ⊢
  cases forced with
  | pinned => rfl
  | upright shared =>
    have middle : (Point.mean (points.map s.point)).x = (s.point p).x := by
      apply Point.mean_x_of_forall nonempty
      rw [List.forall_mem_map]
      exact fun r listed => (on r listed).x_eq shared
    rw [middle, Line.eq_iff, Point.eq_iff, Point.eq_iff]
    exact ⟨⟨rfl, rfl⟩, shared, rfl⟩
  | level shared =>
    have middle : (Point.mean (points.map s.point)).y = (s.point p).y := by
      apply Point.mean_y_of_forall nonempty
      rw [List.forall_mem_map]
      exact fun r listed => (on r listed).y_eq shared
    rw [middle, Line.eq_iff, Point.eq_iff, Point.eq_iff]
    exact ⟨⟨rfl, rfl⟩, rfl, shared⟩

private theorem Forced.ends_eq (forced : Forced s center p q l) (same : s.point p = s.point q) :
    l.p0 = l.p1 := by
  obtain ⟨x, y⟩ := Point.eq_iff.mp same
  cases forced with
  | pinned => exact same
  | upright shared => exact Point.eq_iff.mpr ⟨rfl, y⟩
  | level shared => exact Point.eq_iff.mpr ⟨x, rfl⟩

/-- No two points in one place force their line on points elsewhere. -/
def WellForced (s : Store ℝ) (points : List (Point Variable)) : Prop :=
  (∀ pair, s.forcingPair? points = some pair → s.point pair.1 ≠ s.point pair.2) ∨
    ∀ p ∈ points, ∀ q ∈ points, s.point p = s.point q

private theorem wellForced_of_nodup (nodup : (points.map s.point).Nodup) : s.WellForced points := by
  refine .inl fun pair found => ?_
  exact related_of_forcingPair? (fun p q distinct => distinct.symm) (List.pairwise_map.mp nodup) found

private theorem wellForced_of_none (free : s.forcingPair? points = none) : s.WellForced points := by
  refine .inl fun pair found => ?_
  rw [free] at found
  cases found

private theorem wellForced_iff (found : s.forcingPair? points = some (p, q)) :
    s.WellForced points ↔ s.point p ≠ s.point q ∨ ∀ p ∈ points, ∀ q ∈ points, s.point p = s.point q := by
  simp only [WellForced, found, Option.some.injEq, forall_eq']

private theorem contains_fittedLine (colinear : Colinear (points.map s.point)) :
    (∀ r ∈ points, (s.fittedLine points).Contains (s.point r)) ↔ s.WellForced points := by
  cases found : s.forcingPair? points with
  | none =>
    refine iff_of_true ?_ (wellForced_of_none found)
    rw [fittedLine_of_none found]
    exact List.forall_mem_map.mp colinear.contains_leastSquares
  | some pair =>
    obtain ⟨p, q⟩ := pair
    obtain ⟨first, second⟩ := mem_of_forcingPair? found
    rw [wellForced_iff found]
    by_cases same : s.point p = s.point q
    -- The line of the two has one point, whether it is drawn through them or at the mean.
    · rw [or_iff_right (not_not.mpr same)]
      constructor
      · intro on v here w there
        have ends := (forced_fittedLine found).ends_eq same
        exact ((Line.contains_of_eq ends).mp (on v here)).trans ((Line.contains_of_eq ends).mp (on w there)).symm
      · intro together
        have on : ∀ r ∈ points, Line.Contains ⟨s.point p, s.point q⟩ (s.point r) := fun r listed =>
          (Line.contains_of_eq (l := ⟨s.point p, s.point q⟩) same).mpr (together r listed p first)
        rwa [fittedLine_of_some found on]
    · have on : ∀ r ∈ points, Line.Contains ⟨s.point p, s.point q⟩ (s.point r) := List.forall_mem_map.mp
        (colinear.contains (List.mem_map_of_mem first) (List.mem_map_of_mem second) same)
      refine iff_of_true ?_ (.inl same)
      rwa [fittedLine_of_some found on]

end Store

namespace Relation

open Scalar Delta

/-- Points of one line have no error, and are not moved, exactly if no two of them that are in one place force
their line on the others. Points in different places never do. -/
theorem colinear_satisfied {s : Store ℝ} {points : List (Point Variable)} (three : 3 ≤ points.length)
    (colinear : Colinear (points.map s.point)) :
    let relation := Relation.colinearPoints points
    (Constraint.error s relation = 0 ↔ s.WellForced points) ∧
      ((∀ delta ∈ Constraint.deltas s relation, delta.amount = 0) ↔ s.WellForced points) ∧
      ((points.map s.point).Nodup → s.WellForced points) := by
  intro relation
  have enough : ¬points.length < 3 := Nat.not_lt_of_ge three
  refine ⟨?_, ?_, Store.wellForced_of_nodup⟩
  · exact (error_colinearPoints enough).trans (Store.contains_fittedLine colinear)
  · exact (idle_colinearPoints enough).trans (Store.contains_fittedLine colinear)

section Beam

def beamStart : Point Variable := ⟨⟨0⟩, ⟨1⟩⟩

def beamMiddle : Point Variable := ⟨⟨2⟩, ⟨3⟩⟩

def beamEnd : Point Variable := ⟨⟨4⟩, ⟨5⟩⟩

noncomputable def beamStore : Store ℝ :=
  ⟨#[⟨-1, true⟩, ⟨-1, false⟩, ⟨0, false⟩, ⟨0, false⟩, ⟨1, true⟩, ⟨1, false⟩], #[0, 1, 2, 3, 4, 5]⟩

theorem colinear_satisfied_beam :
    let points := [beamStart, beamMiddle, beamEnd, beamMiddle]
    let relation := Relation.colinearPoints points
    (3 ≤ points.length ∧ Colinear (points.map beamStore.point)) ∧ beamStore.WellForced points ∧
      Constraint.error beamStore relation = 0 ∧
      ∀ delta ∈ Constraint.deltas beamStore relation, delta.amount = 0 := by
  intro points relation
  have places : points.map beamStore.point = [⟨-1, -1⟩, ⟨0, 0⟩, ⟨1, 1⟩, ⟨0, 0⟩] := rfl
  have three : 3 ≤ points.length := by decide
  have colinear : Colinear (points.map beamStore.point) := by
    refine ⟨⟨⟨0, 0⟩, ⟨1, 1⟩⟩, fun same => zero_ne_one (congrArg Point.x same), ?_⟩
    have start : Line.Contains ⟨⟨0, 0⟩, ⟨1, 1⟩⟩ ⟨-1, -1⟩ := ⟨-1, by simp [Point.eq_iff]⟩
    have middle : Line.Contains ⟨⟨0, 0⟩, ⟨1, 1⟩⟩ ⟨0, 0⟩ := ⟨0, by simp [Point.eq_iff]⟩
    have stop : Line.Contains ⟨⟨0, 0⟩, ⟨1, 1⟩⟩ ⟨1, 1⟩ := ⟨1, by simp [Point.eq_iff]⟩
    simp only [places, List.forall_mem_cons]
    exact ⟨start, middle, stop, middle, List.forall_mem_nil _⟩
  have forced : beamStore.forcingPair? points = some (beamStart, beamEnd) := rfl
  have wellForced : beamStore.WellForced points := by
    refine .inl fun pair found => ?_
    rw [forced] at found
    obtain rfl := Option.some.inj found
    intro same
    have x : (-1 : ℝ) = 1 := congrArg Point.x same
    norm_num at x
  obtain ⟨error, idle, -⟩ := colinear_satisfied three colinear
  exact ⟨⟨three, colinear⟩, wellForced, error.mpr wellForced, idle.mpr wellForced⟩

end Beam

section Repeated

/-- A point that is named twice is linked to itself: the upright line forced on it, at the mean of all
first coordinates, has no length. -/
theorem colinear_repeated :
    let s : Store ℝ := ⟨#[⟨0, false⟩, ⟨0, false⟩, ⟨3, false⟩, ⟨0, false⟩], #[0, 1, 2, 3]⟩
    let points : List (Point Variable) := [⟨⟨0⟩, ⟨1⟩⟩, ⟨⟨0⟩, ⟨1⟩⟩, ⟨⟨2⟩, ⟨3⟩⟩]
    let relation := Relation.colinearPoints points
    (3 ≤ points.length ∧ Colinear (points.map s.point)) ∧ Constraint.error s relation = 4 ∧
      (Constraint.deltas s relation).map Delta.amount = [1, 0, 1, 0, -2, 0] := by
  intro s points relation
  have places : points.map s.point = [⟨0, 0⟩, ⟨0, 0⟩, ⟨3, 0⟩] := rfl
  have colinear : Colinear (points.map s.point) := by
    refine ⟨⟨⟨0, 0⟩, ⟨3, 0⟩⟩, fun same => three_ne_zero (congrArg Point.x same).symm, ?_⟩
    have start : Line.Contains ⟨⟨0, 0⟩, ⟨3, 0⟩⟩ ⟨0, 0⟩ := ⟨0, by simp [Point.eq_iff]⟩
    have stop : Line.Contains ⟨⟨0, 0⟩, ⟨3, 0⟩⟩ ⟨3, 0⟩ := ⟨1, by simp [Point.eq_iff]⟩
    simp only [places, List.forall_mem_cons]
    exact ⟨start, start, stop, List.forall_mem_nil _⟩
  have middle : (Point.mean (points.map s.point)).x = 1 := by
    rw [Point.mean_eq (by simp [places]), places]
    norm_num [mean]
  have line : s.fittedLine points = ⟨⟨1, 0⟩, ⟨1, 0⟩⟩ := by
    change Line.ofCoords (Point.mean (points.map s.point)).x 0 (Point.mean (points.map s.point)).x 0 = _
    rw [middle]
    rfl
  have foot (p : Point ℝ) : (s.fittedLine points).project p = ⟨1, 0⟩ := by
    rw [line]
    exact Line.project_of_eq rfl p
  refine ⟨⟨by decide, colinear⟩, ?_, ?_⟩
  · change sum ((points.map s.point).map fun p => p.distance ((s.fittedLine points).project p)) = 4
    rw [places]
    norm_num [foot, Point.distance_eq]
  · change (points.flatMap fun p => towardPoint s p ((s.fittedLine points).project (s.point p))).map amount = _
    simp only [foot]
    change [(1 : ℝ) - 0, 0 - 0, 1 - 0, 0 - 0, 1 - 3, 0 - 0] = _
    norm_num

end Repeated

end Relation

end PlaneSketch
