import PlaneSketch.Proofs.Relation.Forced
import PlaneSketch.Proofs.Solver.Averaging

/-! When a pass can bring points no nearer to one line, although other values of their free coordinates would put
them on one. Two points that are pinned along the same axis force their line, and nothing else is tried if all
points off it are pinned against going straight to it. No other line is ever in the way. -/
namespace PlaneSketch

private theorem eq_zero_of_sum_eq_zero {xs : List ℝ} (alone : xs.Pairwise fun x y => x = 0 ∨ y = 0)
    (none : xs.sum = 0) : ∀ x ∈ xs, x = 0 := by
  induction xs with
  | nil => exact List.forall_mem_nil _
  | cons x xs ih =>
    obtain ⟨here, later⟩ := List.pairwise_cons.mp alone
    rw [List.sum_cons] at none
    rw [List.forall_mem_cons]
    by_cases zero : x = 0
    · rw [zero, zero_add] at none
      exact ⟨zero, ih later none⟩
    · have rest : ∀ y ∈ xs, y = 0 := fun y member => (here y member).resolve_left zero
      rw [List.sum_eq_zero rest, add_zero] at none
      exact absurd none zero

namespace Store

section Scan

variable {α : Type} [Scalar α] {s : Store α} {points : List (Point Variable)} {axis : Point Variable → Variable}

/-- No two of the points are pinned along the axis. -/
def Lone (s : Store α) (axis : Point Variable → Variable) (points : List (Point Variable)) : Prop :=
  points.Pairwise fun p q => s.isConstant (axis p) = false ∨ s.isConstant (axis q) = false

private theorem lone_of_pinnedPair? (unfound : s.pinnedPair? none none points = none) :
    s.Lone Point.x points ∧ s.Lone Point.y points := by
  have few (axis : Axis) : points.countP (s.isPinned axis) < 2 := by
    refine not_le.mp fun two => ?_
    have found := isSome_pinnedPair?.mpr ⟨axis, two⟩
    rw [unfound] at found
    cases found
  exact ⟨pairwise_of_countP_lt_two (few .x), pairwise_of_countP_lt_two (few .y)⟩

private theorem forcingPair?_of_unlinked (unlinked : s.Unlinked (points.flatMap Point.toList)) :
    s.forcingPair? points = s.pinnedPair? none none points := by
  have apart := unlinked.apart
  rw [List.map_flatMap, List.nodup_flatMap] at apart
  have unshared : points.Pairwise fun p q => s.shares p q = false := by
    refine apart.2.imp fun {p q} disjoint => ?_
    change List.Disjoint [s.cellOf p.x, s.cellOf p.y] [s.cellOf q.x, s.cellOf q.y] at disjoint
    simp only [List.disjoint_cons_left, List.mem_cons, List.not_mem_nil, or_false, not_or] at disjoint
    rw [shares, Bool.or_eq_false_iff, Bool.eq_false_iff, Bool.eq_false_iff, Ne, Ne, isLinked_iff, isLinked_iff]
    exact ⟨disjoint.1.1, disjoint.2.1.2⟩
  have unlinked : s.linkedPair? points = none := by
    rw [linkedPair?, List.find?_eq_none]
    intro pair listed
    rw [Bool.not_eq_true]
    refine related_of_mem_orderedPairs ?_ unshared listed
    intro p q apart
    rwa [shares, isLinked_comm, s.isLinked_comm q.y]
  rw [forcingPair?, unlinked, Option.or_none]

end Scan

section Exact

variable {s : Store ℝ} {points : List (Point Variable)} {l : Line ℝ} {p q : Point Variable}
  {axis : Point Variable → Variable}

/-- The point is on the line, or is pinned in each coordinate that going straight to the line would change. -/
def Stuck (s : Store ℝ) (l : Line ℝ) (p : Point Variable) : Prop :=
  l.Contains (s.point p) ∨
    (s.isConstant p.x = true ∨ l.p0.y = l.p1.y) ∧ (s.isConstant p.y = true ∨ l.p0.x = l.p1.x)

private theorem stuck_iff (distinct : l.p0 ≠ l.p1) :
    s.Stuck l p ↔ (s.isConstant p.x = true ∨ (s.point p).x = (l.project (s.point p)).x) ∧
      (s.isConstant p.y = true ∨ (s.point p).y = (l.project (s.point p)).y) := by
  rw [Stuck, Line.project_x_eq distinct, Line.project_y_eq distinct]
  tauto

/-- Some values of the free coordinates would put the points on one line. -/
def Alignable (s : Store ℝ) (points : List (Point Variable)) : Prop :=
  ∃ value : Variable → ℝ, (∀ v ∈ points.flatMap Point.toList, s.isConstant v = true → value v = s.value v) ∧
    Colinear (points.map (Point.map value))

/-- The points are forced on the line of two that are not fully pinned, and can go no nearer. -/
def Jammed (s : Store ℝ) (points : List (Point Variable)) : Prop :=
  ∃ p q, s.pinnedPair? none none points = some (p, q) ∧
    ¬(∀ v ∈ p.toList ++ q.toList, s.isConstant v = true) ∧
    ∀ r ∈ points, s.Stuck ⟨s.point p, s.point q⟩ r

private theorem lone_off (lone : s.Lone axis points)
    (pinned : ∀ p ∈ points, l.side (s.point p) = 0 ∨ s.isConstant (axis p) = true) :
    points.Pairwise fun p q => l.side (s.point p) = 0 ∨ l.side (s.point q) = 0 := by
  refine lone.imp_of_mem fun {p q} first second free => ?_
  rcases free with free | free
  · exact .inl ((pinned p first).resolve_right (Bool.not_eq_true _ ▸ free))
  · exact .inr ((pinned q second).resolve_right (Bool.not_eq_true _ ▸ free))

/-- Where no axis has two pinned points at most one point is stuck off the line, and the others do not balance it. -/
private theorem contains_of_stuck (distinct : l.p0 ≠ l.p1) (x : s.Lone Point.x points)
    (y : s.Lone Point.y points)
    (balanced : ((points.map s.point).map l.side).sum = 0) (stuck : ∀ p ∈ points, s.Stuck l p) :
    ∀ p ∈ points, l.Contains (s.point p) := by
  have single : points.Pairwise fun p q => l.side (s.point p) = 0 ∨ l.side (s.point q) = 0 := by
    by_cases upright : l.p0.x = l.p1.x
    · have tilted : ¬l.p0.y = l.p1.y := fun level => distinct (Point.eq_iff.mpr ⟨upright, level⟩)
      refine lone_off x fun p listed => ?_
      rw [← Line.contains_iff_side distinct]
      exact (stuck p listed).imp_right fun pinned => pinned.1.resolve_right tilted
    · refine lone_off y fun p listed => ?_
      rw [← Line.contains_iff_side distinct]
      exact (stuck p listed).imp_right fun pinned => pinned.2.resolve_right upright
  have signed : ((points.map s.point).map l.side).Pairwise fun x y => x = 0 ∨ y = 0 := by
    rwa [List.map_map, List.pairwise_map]
  have level := eq_zero_of_sum_eq_zero signed balanced
  simp only [List.forall_mem_map] at level
  exact fun p listed => (Line.contains_iff_side distinct).mpr (level p listed)

private theorem Stuck.contains (stuck : s.Stuck l p) (distinct : l.p0 ≠ l.p1) {value : Variable → ℝ}
    (kept : ∀ v ∈ p.toList, s.isConstant v = true → value v = s.value v) (on : l.Contains (p.map value)) :
    l.Contains (s.point p) := by
  rcases stuck with done | ⟨x, y⟩
  · exact done
  · have same : l.side (s.point p) = l.side (p.map value) := by
      apply Line.side_congr
      · exact x.imp_left fun pinned => (kept p.x List.mem_cons_self pinned).symm
      · exact y.imp_left fun pinned => (kept p.y (List.mem_cons_of_mem _ List.mem_cons_self) pinned).symm
    rw [Line.contains_iff_side distinct] at on ⊢
    exact same.trans on

theorem fittedLine_of_pinnedPair? (found : s.pinnedPair? none none points = some (p, q)) :
    s.fittedLine points = ⟨s.point p, s.point q⟩ := by
  rw [fittedLine, forcedLine?_eq, found]
  rfl

private theorem contains_of_pinned (alignable : s.Alignable points) (distinct : s.point p ≠ s.point q)
    (first : p ∈ points)
    (second : q ∈ points) (pinned : ∀ v ∈ p.toList ++ q.toList, s.isConstant v = true)
    (stuck : ∀ r ∈ points, s.Stuck ⟨s.point p, s.point q⟩ r) :
    ∀ r ∈ points, Line.Contains ⟨s.point p, s.point q⟩ (s.point r) := by
  obtain ⟨value, kept, colinear⟩ := alignable
  have own : ∀ r ∈ points, ∀ v ∈ r.toList, s.isConstant v = true → value v = s.value v :=
    fun r listed v part => kept v (List.mem_flatMap.mpr ⟨r, listed, part⟩)
  have stays : ∀ r ∈ points, (∀ v ∈ r.toList, s.isConstant v = true) → r.map value = s.point r := by
    intro r listed full
    have same : ∀ v ∈ r.toList, value v = s.value v := fun v part => own r listed v part (full v part)
    exact Point.eq_iff.mpr ⟨same r.x List.mem_cons_self, same r.y (List.mem_cons_of_mem _ List.mem_cons_self)⟩
  obtain ⟨firstPinned, secondPinned⟩ := List.forall_mem_append.mp pinned
  have start : s.point p ∈ points.map (Point.map value) := stays p first firstPinned ▸ List.mem_map_of_mem first
  have stop : s.point q ∈ points.map (Point.map value) := stays q second secondPinned ▸ List.mem_map_of_mem second
  intro r listed
  have on := colinear.contains start stop distinct (r.map value) (List.mem_map_of_mem listed)
  exact (stuck r listed).contains distinct (own r listed) on

end Exact

end Store

namespace Relation

open Scalar Delta

variable {s : Store ℝ} {points : List (Point Variable)} {factor : ℝ}

private theorem idle_free_towardPoint {p : Point Variable} {goal : Point ℝ} :
    (∀ delta ∈ towardPoint s p goal, s.isConstant delta.target = true ∨ delta.amount = 0) ↔
      (s.isConstant p.x = true ∨ (s.point p).x = goal.x) ∧ (s.isConstant p.y = true ∨ (s.point p).y = goal.y) := by
  rw [towardPoint, List.forall_mem_cons, List.forall_mem_singleton, amount_toward, amount_toward]
  rfl

/-- A pass moves one of the points unless all of them are stuck. -/
theorem moves_iff_not_stuck (unlinked : s.Unlinked (owned (.colinearPoints points))) (positive : 0 < factor)
    (enough : ¬points.length < 3) (distinct : (s.fittedLine points).p0 ≠ (s.fittedLine points).p1) :
    (∃ v ∈ owned (.colinearPoints points), s.isConstant v = false ∧
        (pass factor [.colinearPoints points] s).value v ≠ s.value v) ↔
      ¬∀ p ∈ points, s.Stuck (s.fittedLine points) p := by
  have proposed : deltas s (.colinearPoints points) =
      points.flatMap fun p => towardPoint s p ((s.fittedLine points).project (s.point p)) := if_neg enough
  have some : deltas s (.colinearPoints points) ≠ [] := by
    obtain ⟨p, listed⟩ := List.exists_mem_of_length_pos (Nat.lt_of_lt_of_le three_pos (Nat.le_of_not_lt enough))
    rw [proposed]
    exact List.ne_nil_of_mem (List.mem_flatMap.mpr ⟨p, listed, List.mem_cons_self⟩)
  simp only [Store.stuck_iff distinct, ← idle_free_towardPoint, ← List.forall_mem_flatMap]
  rw [exists_moved_iff unlinked positive some, ← proposed]
  push Not
  simp only [Bool.not_eq_true]

/-- A pass over points off their line that could be on one moves something, unless they are jammed. -/
theorem colinear_moves_unless_jammed (positive : 0 < factor)
    (unlinked : s.Unlinked (owned (.colinearPoints points)))
    (apart : ∀ pair, s.pinnedPair? none none points = some pair → s.point pair.1 ≠ s.point pair.2)
    (off : 0 < Constraint.error s (Relation.colinearPoints points)) (alignable : s.Alignable points) :
    ∃ t, relax factor [Relation.colinearPoints points] s = .ok t ∧
      ((∃ v ∈ owned (.colinearPoints points), s.isConstant v = false ∧ t.value v ≠ s.value v) ↔
        ¬s.Jammed points) := by
  have enough : ¬points.length < 3 := by
    intro few
    have none : error s (.colinearPoints points) = 0 := by simp [error, few]
    exact off.ne' none
  have unsatisfied : ¬∀ p ∈ points, (s.fittedLine points).Contains (s.point p) :=
    fun on => off.ne' ((error_colinearPoints enough).mpr on)
  refine ⟨pass factor [.colinearPoints points] s, relax_eq factor [.colinearPoints points] s, ?_⟩
  cases found : s.pinnedPair? none none points with
  | none =>
    have unforced : s.forcingPair? points = none := (Store.forcingPair?_of_unlinked unlinked).trans found
    have line := Store.fittedLine_of_none unforced
    have distinct : (s.fittedLine points).p0 ≠ (s.fittedLine points).p1 := line ▸ leastSquares_distinct _
    have balanced : ((points.map s.point).map (s.fittedLine points).side).sum = 0 := line ▸ sum_side_leastSquares _
    obtain ⟨x, y⟩ := Store.lone_of_pinnedPair? found
    rw [moves_iff_not_stuck unlinked positive enough distinct]
    refine iff_of_true (fun stuck => unsatisfied (Store.contains_of_stuck distinct x y balanced stuck)) ?_
    rintro ⟨p, q, pinned, -⟩
    rw [found] at pinned
    cases pinned
  | some pair =>
    obtain ⟨p, q⟩ := pair
    have line := Store.fittedLine_of_pinnedPair? found
    have distinct : s.point p ≠ s.point q := apart _ found
    rw [moves_iff_not_stuck unlinked positive enough (line ▸ distinct), line, not_iff_not]
    rw [line] at unsatisfied
    obtain ⟨first, second⟩ := Store.mem_of_forcingPair? ((Store.forcingPair?_of_unlinked unlinked).trans found)
    constructor
    · intro stuck
      refine ⟨p, q, found, fun pinned => ?_, stuck⟩
      exact unsatisfied (Store.contains_of_pinned alignable distinct first second pinned stuck)
    · rintro ⟨p', q', same, -, stuck⟩
      rw [found] at same
      cases same
      exact stuck

section Posts

noncomputable def ground : Line ℝ := ⟨⟨0, 0⟩, ⟨1, 0⟩⟩

theorem ground_distinct : ground.p0 ≠ ground.p1 := fun same => zero_ne_one (congrArg Point.x same)

theorem side_ground (p : Point ℝ) : ground.side p = -p.y := by
  simp [ground, Line.side]

private theorem contains_ground {p : Point ℝ} : ground.Contains p ↔ p.y = 0 := by
  rw [Line.contains_iff_side ground_distinct, side_ground, neg_eq_zero]

private theorem distance_ground (p : Point ℝ) : ground.distance p = |p.y| := by
  have length : ground.length = 1 := by
    rw [← sq_eq_sq₀ ground.length_nonneg zero_le_one, Line.length_sq, Line.vector_x, Line.vector_y]
    norm_num [ground]
  rw [Line.distance_eq ground_distinct, side_ground, abs_neg, length, div_one]

def leftPost : Point Variable := ⟨⟨0⟩, ⟨1⟩⟩

def rightPost : Point Variable := ⟨⟨2⟩, ⟨3⟩⟩

def lamp : Point Variable := ⟨⟨4⟩, ⟨5⟩⟩

def posts : List (Point Variable) := [leftPost, rightPost, lamp]

/-- Two points on the ground that can move up and down only, and a third one. -/
noncomputable def postStore (lampAt : Point ℝ) (pinned : Bool) : Store ℝ :=
  ⟨#[⟨0, true⟩, ⟨0, false⟩, ⟨1, true⟩, ⟨0, false⟩, ⟨lampAt.x, pinned⟩, ⟨lampAt.y, pinned⟩], #[0, 1, 2, 3, 4, 5]⟩

variable {lampAt : Point ℝ} {pinned : Bool}

theorem pinnedPair?_postStore : (postStore lampAt pinned).pinnedPair? none none posts = some (leftPost, rightPost) :=
  rfl

theorem fittedLine_postStore : (postStore lampAt pinned).fittedLine posts = ground :=
  Store.fittedLine_of_pinnedPair? pinnedPair?_postStore

theorem error_postStore :
    Constraint.error (postStore lampAt pinned) (Relation.colinearPoints posts) = |lampAt.y| := by
  change sum ((posts.map (postStore lampAt pinned).point).map ((postStore lampAt pinned).fittedLine posts).distance) = _
  rw [fittedLine_postStore, sum_real]
  change ([⟨0, 0⟩, ⟨1, 0⟩, lampAt].map ground.distance).sum = _
  simp [distance_ground]

theorem alignable_postStore : (postStore lampAt pinned).Alignable posts := by
  let value (v : Variable) : ℝ :=
    if v = leftPost.y ∨ v = rightPost.y then lampAt.y else (postStore lampAt pinned).value v
  refine ⟨value, ?_, ⟨⟨0, lampAt.y⟩, ⟨1, lampAt.y⟩⟩, fun same => zero_ne_one (congrArg Point.x same), ?_⟩
  · intro v listed constant
    have other : ¬(v = leftPost.y ∨ v = rightPost.y) := by
      rintro (rfl | rfl) <;> exact Bool.false_ne_true constant
    exact if_neg other
  · change ∀ p ∈ [⟨0, lampAt.y⟩, ⟨1, lampAt.y⟩, lampAt], Line.Contains _ p
    intro p member
    refine ⟨p.x, ?_⟩
    fin_cases member <;> simp [Point.eq_iff]

theorem stuck_postStore (above : lampAt.y ≠ 0) :
    (∀ p ∈ posts, (postStore lampAt pinned).Stuck ground p) ↔ pinned = true := by
  have left : (postStore lampAt pinned).Stuck ground leftPost := .inl (contains_ground.mpr rfl)
  have right : (postStore lampAt pinned).Stuck ground rightPost := .inl (contains_ground.mpr rfl)
  have off : ¬ground.Contains ((postStore lampAt pinned).point lamp) := contains_ground.not.mpr above
  rw [posts, List.forall_mem_cons, and_iff_right left, List.forall_mem_cons, and_iff_right right,
    List.forall_mem_singleton, Store.Stuck, or_iff_right off]
  have upright : ¬ground.p0.x = ground.p1.x := zero_ne_one
  have level : ground.p0.y = ground.p1.y := rfl
  rw [or_iff_left upright, and_iff_right (.inr level)]
  rfl

theorem colinear_moves_unless_jammed_posts :
    let s := postStore ⟨2, 5 / 2⟩ false
    let relation := Relation.colinearPoints posts
    s.Unlinked (owned relation) ∧ s.pinnedPair? none none posts = some (leftPost, rightPost) ∧
      s.point leftPost ≠ s.point rightPost ∧ 0 < Constraint.error s relation ∧ s.Alignable posts ∧
      ∃ t, relax (1 / 2) [relation] s = .ok t ∧
        ∃ v ∈ owned relation, s.isConstant v = false ∧ t.value v ≠ s.value v := by
  intro s relation
  have half : (0 : ℝ) < 1 / 2 := by norm_num
  have unlinked : s.Unlinked (owned relation) := ⟨by decide, by decide⟩
  have apart : ∀ pair, s.pinnedPair? none none posts = some pair → s.point pair.1 ≠ s.point pair.2 := by
    intro pair found
    rw [pinnedPair?_postStore] at found
    cases found
    exact ground_distinct
  have off : 0 < Constraint.error s relation := error_postStore.symm ▸ by norm_num
  obtain ⟨t, passed, moves⟩ := colinear_moves_unless_jammed half unlinked apart off alignable_postStore
  refine ⟨unlinked, pinnedPair?_postStore, ground_distinct, off, alignable_postStore, t, passed, moves.mpr ?_⟩
  rintro ⟨p, q, found, -, stuck⟩
  rw [pinnedPair?_postStore] at found
  cases found
  exact Bool.false_ne_true ((stuck_postStore (by norm_num)).mp stuck)

/-- With the lamp pinned nothing can move: the posts are on their own line, which would pass through the lamp
if one of them were raised. -/
theorem colinear_stalls :
    let s := postStore ⟨2, 5 / 2⟩ true
    let relation := Relation.colinearPoints posts
    s.Unlinked (owned relation) ∧ 0 < Constraint.error s relation ∧ s.Alignable posts ∧
      s.point leftPost ≠ s.point rightPost ∧
      ∃ t, relax (1 / 2) [relation] s = .ok t ∧
        ∀ v ∈ owned relation, s.isConstant v = false → t.value v = s.value v := by
  intro s relation
  have half : (0 : ℝ) < 1 / 2 := by norm_num
  have unlinked : s.Unlinked (owned relation) := ⟨by decide, by decide⟩
  have off : 0 < Constraint.error s relation := error_postStore.symm ▸ by norm_num
  have line : s.fittedLine posts = ground := fittedLine_postStore
  have still := (moves_iff_not_stuck unlinked half (by decide) (line ▸ ground_distinct)).not
  rw [line, not_not, stuck_postStore (by norm_num)] at still
  refine ⟨unlinked, off, alignable_postStore, ground_distinct, _, relax_eq _ _ _, ?_⟩
  intro v own free
  by_contra moved
  exact still.mpr rfl ⟨v, own, free, moved⟩

end Posts

end Relation

end PlaneSketch
