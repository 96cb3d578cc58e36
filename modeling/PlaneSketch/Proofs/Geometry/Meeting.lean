import PlaneSketch.Proofs.Geometry.Segment

/-! When segments of the exact plane are told to meet. How they are written does not matter, only which points they
have. Three points count as straight below a fixed cross product, so that segments which do touch are told to meet
unless they cross with both ends of one that near to the line of the other. -/
namespace PlaneSketch

theorem straightTolerance_real : (straightTolerance : ℝ) = 1 / 10 := by
  rw [straightTolerance, Scalar.numeral_one, Scalar.numeral_ofNat]

theorem straightTolerance_pos : 0 < (straightTolerance : ℝ) := by
  rw [straightTolerance_real]
  norm_num

namespace Turn

def opposite : Turn → Turn
  | straight => straight
  | clockwise => counterclockwise
  | counterclockwise => clockwise

private theorem opposite_bne (s t : Turn) : (s.opposite != t.opposite) = (s != t) := by
  cases s <;> cases t <;> rfl

private theorem opposite_beq_straight (t : Turn) : (t.opposite == straight) = (t == straight) := by
  cases t <;> rfl

/-- The turn towards a point on this side of a line. -/
noncomputable def ofSide (s : ℝ) : Turn :=
  if |s| < straightTolerance then straight else if 0 < s then clockwise else counterclockwise

variable {s t : ℝ}

theorem ofSide_eq_straight : ofSide s = straight ↔ |s| < straightTolerance := by
  rw [ofSide]
  split_ifs with near
  · exact iff_of_true rfl near
  · exact iff_of_false nofun near
  · exact iff_of_false nofun near

private theorem pos_of_ofSide (turned : ofSide s = clockwise) : 0 < s := by
  rw [ofSide] at turned
  split_ifs at turned with _ right
  exact right

private theorem neg_of_ofSide (turned : ofSide s = counterclockwise) : s < 0 := by
  rw [ofSide] at turned
  split_ifs at turned with far left
  apply lt_of_le_of_ne (not_lt.mp left)
  rintro rfl
  exact far (abs_zero.trans_lt straightTolerance_pos)

private theorem ofSide_neg (s : ℝ) : ofSide (-s) = (ofSide s).opposite := by
  rw [ofSide, ofSide, abs_neg]
  split_ifs with near left right right
  · rfl
  · linarith
  · rfl
  · rfl
  · obtain rfl : s = 0 := le_antisymm (not_lt.mp right) (neg_nonpos.mp (not_lt.mp left))
    exact absurd (abs_zero.trans_lt straightTolerance_pos) near

private theorem ofSide_eq_ofSide (sides : s * t ≤ 0) :
    ofSide s = ofSide t ↔ |s| < straightTolerance ∧ |t| < straightTolerance := by
  rw [← ofSide_eq_straight, ← ofSide_eq_straight]
  constructor
  · intro same
    cases turned : ofSide t with
    | straight => exact ⟨same.trans turned, rfl⟩
    | clockwise =>
      have both := mul_pos (pos_of_ofSide (same.trans turned)) (pos_of_ofSide turned)
      exact absurd sides both.not_ge
    | counterclockwise =>
      have both := mul_pos_of_neg_of_neg (neg_of_ofSide (same.trans turned)) (neg_of_ofSide turned)
      exact absurd sides both.not_ge
  · rintro ⟨first, second⟩
    rw [first, second]

end Turn

namespace Line

def reverse {κ : Type} (l : Line κ) : Line κ := ⟨l.p1, l.p0⟩

/-- The point is so near to the line, or the line so short, that going along it to the point counts as straight. -/
def Grazes (l : Line ℝ) (p : Point ℝ) : Prop := |l.side p| < straightTolerance

/-- The point counts as lying on the segment. -/
def Catches (l : Line ℝ) (p : Point ℝ) : Prop := l.Grazes p ∧ l.boxContains p = true

/-- Of one segment neither end counts as off the other, and no end of either counts as lying on the other. -/
structure Faint (l m : Line ℝ) : Prop where
  flat : l.Grazes m.p0 ∧ l.Grazes m.p1 ∨ m.Grazes l.p0 ∧ m.Grazes l.p1
  apart : ¬(l.Catches m.p0 ∨ l.Catches m.p1 ∨ m.Catches l.p0 ∨ m.Catches l.p1)

variable {l m : Line ℝ} {p q : Point ℝ}

theorem turn_eq (l : Line ℝ) (p : Point ℝ) : turn l.p0 l.p1 p = .ofSide (l.side p) := by
  have cross : (l.p1.y - l.p0.y) * (p.x - l.p1.x) - (l.p1.x - l.p0.x) * (p.y - l.p1.y) = l.side p := by
    rw [side, vector_x, vector_y]
    ring
  simp only [turn, cross, Scalar.abs_real, Scalar.numeral_zero, Turn.ofSide]

private theorem turn_eq_straight : turn l.p0 l.p1 p = .straight ↔ l.Grazes p := by
  rw [turn_eq, Turn.ofSide_eq_straight, Grazes]

section Written

private theorem side_reverse (l : Line ℝ) (p : Point ℝ) : l.reverse.side p = -l.side p := by
  simp only [side, reverse, vector_x, vector_y]
  ring

private theorem turn_reverse (l : Line ℝ) (p : Point ℝ) :
    turn l.reverse.p0 l.reverse.p1 p = (turn l.p0 l.p1 p).opposite := by
  rw [turn_eq, turn_eq, side_reverse, Turn.ofSide_neg]

private theorem length_reverse (l : Line ℝ) : l.reverse.length = l.length := Point.distance_comm _ _

private theorem boxContains_reverse (l : Line ℝ) (p : Point ℝ) :
    l.reverse.boxContains p = l.boxContains p := by
  simp only [boxContains, reverse, Scalar.max_real, Scalar.min_real, max_comm l.p1.x, max_comm l.p1.y,
    min_comm l.p1.x, min_comm l.p1.y]

private theorem meets_comm (l m : Line ℝ) : m.meets l = l.meets m := by
  simp only [meets]
  rw [Bool.or_comm]
  congr 1
  ac_rfl

private theorem meets_reverse (l m : Line ℝ) : l.reverse.meets m = l.meets m := by
  simp only [meets, turn_reverse, length_reverse, boxContains_reverse, Turn.opposite_bne,
    Turn.opposite_beq_straight]
  simp only [reverse, bne_comm (a := turn m.p0 m.p1 l.p1)]
  congr 1
  ac_rfl

private theorem along_injective (distinct : l.p0 ≠ l.p1) : Function.Injective l.along := by
  intro r s same
  obtain ⟨x, y⟩ := Point.eq_iff.mp same
  rw [along_x, along_x, add_right_inj] at x
  rw [along_y, along_y, add_right_inj] at y
  by_contra different
  apply distinct
  rw [Point.eq_iff]
  constructor
  · by_contra wide
    exact different (mul_left_cancel₀ (sub_ne_zero.mpr (Ne.symm wide)) x)
  · by_contra high
    exact different (mul_left_cancel₀ (sub_ne_zero.mpr (Ne.symm high)) y)

private theorem along_along {r s t : ℝ} (first : m.p0 = l.along r) (second : m.p1 = l.along s) :
    m.along t = l.along ((1 - t) * r + t * s) := by
  rw [Point.eq_iff] at *
  simp only [along_x, along_y] at *
  rw [first.1, first.2, second.1, second.2]
  constructor
  · ring
  · ring

private theorem eq_zero_of_mean {a b w : ℝ} (a_nonneg : 0 ≤ a) (b_nonneg : 0 ≤ b) (w_nonneg : 0 ≤ w)
    (w_le : w ≤ 1) (mean : (1 - w) * a + w * b = 0) : a = 0 ∨ b = 0 := by
  obtain ⟨first, second⟩ := (add_eq_zero_iff_of_nonneg (mul_nonneg (sub_nonneg.mpr w_le) a_nonneg)
    (mul_nonneg w_nonneg b_nonneg)).mp mean
  rcases mul_eq_zero.mp first with all | zero
  · right
    rwa [← sub_eq_zero.mp all, one_mul] at second
  · exact .inl zero

/-- The points of a segment tell its ends, though not which comes first. -/
private theorem eq_or_eq_reverse (same : ∀ p, m.Spans p ↔ l.Spans p) : m = l ∨ m = l.reverse := by
  obtain ⟨r, r_nonneg, r_le, first⟩ := spans_iff.mp ((same _).mp m.spans_p0)
  obtain ⟨s, s_nonneg, s_le, second⟩ := spans_iff.mp ((same _).mp m.spans_p1)
  by_cases short : l.p0 = l.p1
  · left
    rw [along_of_eq short] at first second
    exact eq_iff.mpr ⟨first, second.trans short⟩
  -- The ends of either segment are means of those of the other, so that an end is the mean of means.
  obtain ⟨u, u_nonneg, u_le, start⟩ := spans_iff.mp ((same _).mpr l.spans_p0)
  obtain ⟨v, v_nonneg, v_le, stop⟩ := spans_iff.mp ((same _).mpr l.spans_p1)
  rw [along_along first second] at start stop
  have from_start := along_injective short (l.along_zero.trans start)
  have to_stop := along_injective short (l.along_one.trans stop)
  have starts : r = 0 ∨ s = 0 := eq_zero_of_mean r_nonneg s_nonneg u_nonneg u_le from_start.symm
  have stops : 1 - r = 0 ∨ 1 - s = 0 :=
    eq_zero_of_mean (sub_nonneg.mpr r_le) (sub_nonneg.mpr s_le) v_nonneg v_le (by linear_combination to_stop)
  rcases starts with rfl | rfl
  · obtain rfl : 1 = s := sub_eq_zero.mp (stops.resolve_left (by norm_num))
    exact .inl (eq_iff.mpr ⟨first.trans l.along_zero, second.trans l.along_one⟩)
  · obtain rfl : 1 = r := sub_eq_zero.mp (stops.resolve_right (by norm_num))
    exact .inr (eq_iff.mpr ⟨first.trans l.along_one, second.trans l.along_zero⟩)

end Written

/-- Which points the segments have decides whether they meet: not which is named first, and not from which of its
ends each is drawn. -/
theorem meets_unordered (l m : Line ℝ) :
    (m.meets l = l.meets m ∧ l.reverse.meets m = l.meets m ∧ l.meets m.reverse = l.meets m ∧
      l.reverse.meets m.reverse = l.meets m) ∧
    ∀ l' m' : Line ℝ, (∀ p, l'.Spans p ↔ l.Spans p) → (∀ p, m'.Spans p ↔ m.Spans p) →
      l'.meets m' = l.meets m := by
  have right : ∀ l m : Line ℝ, l.meets m.reverse = l.meets m := fun l m => by
    rw [← meets_comm, meets_reverse, meets_comm]
  refine ⟨⟨meets_comm l m, meets_reverse l m, right l m, ?_⟩, ?_⟩
  · rw [meets_reverse, right]
  · intro l' m' first second
    rcases eq_or_eq_reverse first with rfl | rfl <;> rcases eq_or_eq_reverse second with rfl | rfl
    · rfl
    · exact right _ _
    · exact meets_reverse _ _
    · rw [meets_reverse, right]

section Touching

private theorem boxContains_of_spans (on : l.Spans p) : l.boxContains p = true := by
  obtain ⟨r, start, stop, x, y⟩ := on
  have between : ∀ a b : ℝ, (1 - r) * a + r * b ≤ max a b ∧ min a b ≤ (1 - r) * a + r * b := fun a b =>
    ⟨by nlinarith [le_max_left a b, le_max_right a b], by nlinarith [min_le_left a b, min_le_right a b]⟩
  rw [boxContains, decide_eq_true_eq, Scalar.max_real, Scalar.max_real, Scalar.min_real, Scalar.min_real, x, y]
  exact ⟨(between _ _).1, (between _ _).2, (between _ _).1, (between _ _).2⟩

private theorem catches_of_spans (on : l.Spans p) : l.Catches p := by
  refine ⟨?_, boxContains_of_spans on⟩
  obtain ⟨r, _, _, rfl⟩ := spans_iff.mp on
  rw [Grazes, side_along, abs_zero]
  exact straightTolerance_pos

private theorem side_mul_side (on : l.Contains p) (between : m.Spans p) : l.side m.p0 * l.side m.p1 ≤ 0 := by
  obtain ⟨r, start, stop, x, y⟩ := between
  obtain ⟨s, rfl⟩ := on
  have mean : (1 - r) * l.side m.p0 + r * l.side m.p1 = 0 := by
    rw [← l.side_along s, side, side, side, x, y]
    ring
  have product : l.side m.p0 * l.side m.p1 = -(r * l.side m.p1 ^ 2 + (1 - r) * l.side m.p0 ^ 2) := by
    linear_combination (l.side m.p0 + l.side m.p1) * mean
  rw [product, neg_nonpos]
  exact add_nonneg (mul_nonneg start (sq_nonneg _)) (mul_nonneg (sub_nonneg.mpr stop) (sq_nonneg _))

private theorem meets_iff (long : l.p0 ≠ l.p1) (long' : m.p0 ≠ m.p1) :
    l.meets m = true ↔
      (turn l.p0 l.p1 m.p0 ≠ turn l.p0 l.p1 m.p1 ∧ turn m.p0 m.p1 l.p0 ≠ turn m.p0 m.p1 l.p1) ∨
        l.Catches m.p0 ∨ l.Catches m.p1 ∨ m.Catches l.p0 ∨ m.Catches l.p1 := by
  have first := decide_eq_false (length_pos long).ne'
  have second := decide_eq_false (length_pos long').ne'
  simp only [meets, Scalar.beq_real, Scalar.numeral_zero, first, second, Bool.or_self, Bool.false_eq_true, if_false,
    Bool.or_eq_true, Bool.and_eq_true, bne_iff_ne, beq_iff_eq, turn_eq_straight, Catches, or_assoc, ne_eq]

theorem meets_iff_not_faint (long : l.p0 ≠ l.p1) (long' : m.p0 ≠ m.p1) (on : l.Spans p) (on' : m.Spans p) :
    l.meets m = true ↔ ¬l.Faint m := by
  have first := Turn.ofSide_eq_ofSide (side_mul_side on.contains on')
  have second := Turn.ofSide_eq_ofSide (side_mul_side on'.contains on)
  rw [meets_iff long long', turn_eq, turn_eq, turn_eq, turn_eq, ne_eq, ne_eq, first, second, ← not_or]
  constructor
  · rintro (crossing | caught) ⟨flat, apart⟩
    · exact crossing flat
    · exact apart caught
  · intro clear
    by_contra missed
    obtain ⟨flat, apart⟩ := not_or.mp missed
    exact clear ⟨not_not.mp flat, apart⟩

private theorem side_sub_side (l : Line ℝ) (p q : Point ℝ) :
    l.side p - l.side q = (p.x - q.x) * l.vector.y - (p.y - q.y) * l.vector.x := by
  rw [side, side]
  ring

private theorem not_grazes_of_wide (wide : 2 * straightTolerance ≤ |l.side p - l.side q|) :
    ¬(l.Grazes p ∧ l.Grazes q) := by
  rintro ⟨first, second⟩
  have both := (abs_sub (l.side p) (l.side q)).trans_lt (add_lt_add first second)
  rw [← two_mul] at both
  exact wide.not_gt both

private theorem not_faint_of_wide (wide : 2 * straightTolerance ≤ |l.vector.x * m.vector.y - l.vector.y * m.vector.x|) :
    ¬l.Faint m := by
  have first : l.side m.p0 - l.side m.p1 = l.vector.x * m.vector.y - l.vector.y * m.vector.x := by
    rw [side_sub_side, vector_x m, vector_y m]
    ring
  have second : m.side l.p1 - m.side l.p0 = l.vector.x * m.vector.y - l.vector.y * m.vector.x := by
    rw [side_sub_side, vector_x l, vector_y l]
  rintro ⟨flat | flat, -⟩
  · exact not_grazes_of_wide (first ▸ wide) flat
  · exact not_grazes_of_wide (second ▸ wide) flat.symm

/-- Segments that touch are told to meet unless they cross faintly. An end on the other segment is noticed whatever
their size, and so is a crossing if the cross product of their directions is twice what counts as straight. -/
theorem meets_touching (long : l.p0 ≠ l.p1) (long' : m.p0 ≠ m.p1) (on : l.Spans p) (on' : m.Spans p) :
    (l.meets m = false ↔ l.Faint m) ∧
      (l.Spans m.p0 ∨ l.Spans m.p1 ∨ m.Spans l.p0 ∨ m.Spans l.p1 → l.meets m = true) ∧
      (2 * straightTolerance ≤ |l.vector.x * m.vector.y - l.vector.y * m.vector.x| → l.meets m = true) := by
  have noticed := meets_iff_not_faint long long' on on'
  refine ⟨?_, fun ends => noticed.mpr fun faint => faint.apart ?_, fun wide => noticed.mpr (not_faint_of_wide wide)⟩
  · rw [← Bool.not_eq_true, noticed, not_not]
  · exact ends.imp catches_of_spans (.imp catches_of_spans (.imp catches_of_spans catches_of_spans))

section Small

noncomputable def bar : Line ℝ := .ofCoords (-(1 / 8)) 0 (1 / 8) 0

noncomputable def stem : Line ℝ := .ofCoords 0 0 0 (1 / 8)

noncomputable def post : Line ℝ := .ofCoords 0 (-(1 / 8)) 0 (1 / 8)

theorem bar_long : bar.p0 ≠ bar.p1 := by
  intro same
  have x : (-(1 / 8) : ℝ) = 1 / 8 := congrArg Point.x same
  norm_num at x

theorem bar_spans : bar.Spans ⟨0, 0⟩ :=
  ⟨1 / 2, by norm_num, by norm_num, by norm_num [bar, ofCoords], by norm_num [bar, ofCoords]⟩

theorem meets_touching_stem :
    (bar.p0 ≠ bar.p1 ∧ stem.p0 ≠ stem.p1 ∧ bar.Spans ⟨0, 0⟩ ∧ stem.Spans ⟨0, 0⟩) ∧ bar.meets stem = true := by
  have long : stem.p0 ≠ stem.p1 := by
    intro same
    have y : (0 : ℝ) = 1 / 8 := congrArg Point.y same
    norm_num at y
  have on : stem.Spans ⟨0, 0⟩ := stem.spans_p0
  exact ⟨⟨bar_long, long, bar_spans, on⟩, (meets_touching bar_long long bar_spans on).2.1 (.inl bar_spans)⟩

/-- Small segments that cross each other in the middle are not told to meet. -/
theorem bar_misses_post :
    (bar.p0 ≠ bar.p1 ∧ post.p0 ≠ post.p1 ∧ bar.Spans ⟨0, 0⟩ ∧ post.Spans ⟨0, 0⟩) ∧ bar.meets post = false := by
  have long : post.p0 ≠ post.p1 := by
    intro same
    have y : (-(1 / 8) : ℝ) = 1 / 8 := congrArg Point.y same
    norm_num at y
  have on : post.Spans ⟨0, 0⟩ :=
    ⟨1 / 2, by norm_num, by norm_num, by norm_num [post, ofCoords], by norm_num [post, ofCoords]⟩
  have faint : bar.Faint post := by
    constructor
    · left
      constructor <;> norm_num [Grazes, straightTolerance_real, side, bar, post, ofCoords, abs_lt]
    · norm_num [Catches, boxContains, bar, post, ofCoords]
  refine ⟨⟨bar_long, long, bar_spans, on⟩, ?_⟩
  rw [← Bool.not_eq_true, meets_iff_not_faint bar_long long bar_spans on, not_not]
  exact faint

end Small

end Touching

end Line

end PlaneSketch
