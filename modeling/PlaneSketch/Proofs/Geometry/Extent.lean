import PlaneSketch.Proofs.Geometry.Angle
import PlaneSketch.Proofs.Geometry.Segment
import PlaneSketch.Geometry.Circle

/-! Which points a figure of the exact plane has, and when all of them lie strictly inside a rectangle. A rectangle is
how far its corners reach to the right, up, to the left and down, and a curve reaches furthest in a direction at the
angle of that direction or else at one of its ends. -/
namespace PlaneSketch

namespace Scalar

private theorem halfPi_real : (halfPi : ℝ) = Real.pi / 2 := by
  rw [halfPi, numeral_ofNat]
  rfl

theorem twoPi_real : (twoPi : ℝ) = 2 * Real.pi := by
  rw [twoPi, numeral_ofNat, mul_comm]
  rfl

theorem twoPi_pos : 0 < (twoPi : ℝ) := twoPi_real ▸ Real.two_pi_pos

end Scalar

theorem quarterTurns_real : (quarterTurns : List ℝ) = [0, Real.pi / 2, Real.pi, 3 * (Real.pi / 2)] := by
  rw [quarterTurns, Scalar.halfPi_real, Scalar.numeral_zero, Scalar.numeral_ofNat]
  rfl

namespace Point

noncomputable def reach (p : Point ℝ) (direction : ℝ) : ℝ := p.x * Real.cos direction + p.y * Real.sin direction

/-- Strictly inside the upright rectangle that has the corners. -/
def Inside (p corner0 corner1 : Point ℝ) : Prop :=
  (min corner0.x corner1.x < p.x ∧ p.x < max corner0.x corner1.x) ∧
    min corner0.y corner1.y < p.y ∧ p.y < max corner0.y corner1.y

variable {corner0 corner1 : Point ℝ} (c p : Point ℝ)

theorem atAngle_x (radius angle : ℝ) : (c.atAngle radius angle).x = c.x + Real.cos angle * radius := rfl

theorem atAngle_y (radius angle : ℝ) : (c.atAngle radius angle).y = c.y + Real.sin angle * radius := rfl

private theorem reach_atAngle (radius angle direction : ℝ) :
    (c.atAngle radius angle).reach direction = c.reach direction + radius * Real.cos (angle - direction) := by
  rw [reach, reach, atAngle_x, atAngle_y, Real.cos_sub]
  ring

theorem reach_atAngle_le {radius x y direction : ℝ} (round : 0 ≤ radius)
    (turned : Real.cos (x - direction) ≤ Real.cos (y - direction)) :
    (c.atAngle radius x).reach direction ≤ (c.atAngle radius y).reach direction := by
  rw [reach_atAngle, reach_atAngle]
  gcongr

theorem distance_atAngle (radius angle : ℝ) : c.distance (c.atAngle radius angle) = |radius| := by
  rw [distance_eq, atAngle_x, atAngle_y, ← Real.sqrt_sq_eq_abs]
  congr 1
  linear_combination radius ^ 2 * Real.cos_sq_add_sin_sq angle

theorem atAngle_down (radius : ℝ) : c.atAngle radius (3 * (Real.pi / 2)) = ⟨c.x, c.y - radius⟩ := by
  have down : 3 * (Real.pi / 2) = Real.pi / 2 + Real.pi := by ring
  rw [eq_iff, atAngle_x, atAngle_y, down, Real.cos_add_pi, Real.sin_add_pi, Real.cos_pi_div_two,
    Real.sin_pi_div_two, neg_zero, zero_mul, add_zero, neg_one_mul, ← sub_eq_add_neg]
  exact ⟨rfl, rfl⟩

theorem atAngle_angleFrom : c.atAngle (c.distance p) (p.angleFrom c) = p := by
  let way : ℂ := ⟨p.x - c.x, p.y - c.y⟩
  have far : c.distance p = ‖way‖ := by
    rw [← norm_sub_comm, norm_eq, Complex.norm_eq_sqrt_sq_add_sq]
    rfl
  have angle : p.angleFrom c = way.arg := rfl
  rw [eq_iff, atAngle_x, atAngle_y, far, angle, mul_comm, mul_comm (Real.sin _), Complex.norm_mul_cos_arg,
    Complex.norm_mul_sin_arg]
  exact ⟨add_sub_cancel _ _, add_sub_cancel _ _⟩

theorem within_iff : within corner0 corner1 p = true ↔ p.Inside corner0 corner1 := by
  have between (a b v : ℝ) : within.between a b v = true ↔ min a b < v ∧ v < max a b := by
    rw [within.between, Bool.or_eq_true, decide_eq_true_eq, decide_eq_true_eq, min_lt_iff, lt_max_iff]
    grind
  rw [within, Bool.and_eq_true, between, between, Inside]

private theorem inside_iff : p.Inside corner0 corner1 ↔
    ∀ direction ∈ quarterTurns, p.reach direction < max (corner0.reach direction) (corner1.reach direction) := by
  have down : 3 * (Real.pi / 2) = Real.pi / 2 + Real.pi := by ring
  simp only [quarterTurns_real, List.forall_mem_cons, reach, down, Real.cos_add_pi, Real.sin_add_pi,
    Real.cos_pi_div_two, Real.sin_pi_div_two, Real.cos_pi, Real.sin_pi, Real.cos_zero, Real.sin_zero,
    mul_zero, mul_one, mul_neg, add_zero, zero_add, neg_zero, max_neg_neg, neg_lt_neg_iff, Inside]
  tauto

theorem inside_of_outreached {p : Point ℝ} (outreached : ∀ direction ∈ quarterTurns,
      ∃ q : Point ℝ, q.Inside corner0 corner1 ∧ p.reach direction ≤ q.reach direction) :
    p.Inside corner0 corner1 := by
  rw [inside_iff]
  intro direction quarter
  obtain ⟨q, inside, further⟩ := outreached direction quarter
  exact further.trans_lt ((inside_iff q).mp inside direction quarter)

end Point

namespace Arc

/-- Along the curve of the arc, its end included. -/
def Passes (a : Arc ℝ) (angle : ℝ) : Prop := a.covers angle = true ∨ angle = a.stopAngle

/-- A point of the curve, which center, radius and angles give. The boundary points need not be. -/
def Has (a : Arc ℝ) (p : Point ℝ) : Prop := ∃ angle, a.Passes angle ∧ p = a.c.atAngle a.r angle

noncomputable def ends (a : Arc ℝ) : List (Point ℝ) := [a.c.atAngle a.r a.startAngle, a.c.atAngle a.r a.stopAngle]

end Arc

namespace Figure

def Has : Figure ℝ → Point ℝ → Prop
  | .point q, p => p = q
  | .line l, p => l.Spans p
  | .circle c, p => c.c.distance p = c.r
  | .arc a, p => a.Has p

def Inside (f : Figure ℝ) (corner0 corner1 : Point ℝ) : Prop := ∀ p, f.Has p → p.Inside corner0 corner1

/-- The points that say where a curve begins and ends. -/
def boundary {κ : Type} : Figure κ → List (Point κ)
  | .arc a => [a.p0, a.p1]
  | _ => []

/-- Where a curve does begin and end. -/
noncomputable def ends : Figure ℝ → List (Point ℝ)
  | .arc a => a.ends
  | _ => []

end Figure

section Curves

private theorem cos_le_max {x y z : ℝ} (start : 0 ≤ x) (first : x ≤ y) (second : y ≤ z)
    (stop : z ≤ 2 * Real.pi) : Real.cos y ≤ max (Real.cos x) (Real.cos z) := by
  rcases le_total y Real.pi with early | late
  · exact le_max_of_le_left (Real.cos_le_cos_of_nonneg_of_le_pi start early first)
  · apply le_max_of_le_right
    rw [← Real.cos_two_pi_sub y, ← Real.cos_two_pi_sub z]
    exact Real.cos_le_cos_of_nonneg_of_le_pi (by linarith) (by linarith) (by linarith)

namespace Arc

/-- Where an angle comes on the way round from the start of the arc. -/
noncomputable def place (a : Arc ℝ) (angle : ℝ) : ℝ := toIcoMod Scalar.twoPi_pos a.startAngle angle

variable {a : Arc ℝ} {angle direction : ℝ}

theorem place_startAngle (a : Arc ℝ) : a.place a.startAngle = a.startAngle := toIcoMod_apply_left ..

private theorem startAngle_le_place (a : Arc ℝ) (angle : ℝ) :
    a.startAngle ≤ a.place angle := left_le_toIcoMod ..

private theorem place_lt (a : Arc ℝ) (angle : ℝ) : a.place angle < a.startAngle + 2 * Real.pi :=
  Scalar.twoPi_real ▸ toIcoMod_lt_right ..

private theorem exists_place (a : Arc ℝ) (angle : ℝ) : ∃ n :
    ℤ, a.place angle = angle - n * (2 * Real.pi) := by
  refine ⟨toIcoDiv Scalar.twoPi_pos a.startAngle angle, ?_⟩
  rw [place, ← self_sub_toIcoDiv_zsmul, zsmul_eq_mul, ← Scalar.twoPi_real]

private theorem cos_place_sub (a : Arc ℝ) (x y : ℝ) :
    Real.cos (a.place x - a.place y) = Real.cos (x - y) := by
  obtain ⟨n, first⟩ := a.exists_place x
  obtain ⟨m, second⟩ := a.exists_place y
  rw [first, second, sub_sub_sub_comm, ← sub_mul, ← Int.cast_sub, Real.cos_sub_int_mul_two_pi]

theorem covers_iff : a.covers angle = true ↔ a.place angle < a.place a.stopAngle :=
  isBetweenModulo_iff Scalar.twoPi_pos

private theorem Passes.place_le (passes : a.Passes angle) : a.place angle ≤ a.place a.stopAngle := by
  rcases passes with covered | rfl
  · exact (covers_iff.mp covered).le
  · exact le_rfl

private theorem Passes.cos_le (passes : a.Passes angle) (misses : ¬a.covers direction = true) :
    Real.cos (angle - direction) ≤
      max (Real.cos (a.startAngle - direction)) (Real.cos (a.stopAngle - direction)) := by
  rw [covers_iff, not_lt] at misses
  have first := a.startAngle_le_place angle
  have last := a.place_lt direction
  -- From the stop back to the start, seen from the direction, is less than a full turn.
  have turned : Real.cos (a.place direction - a.place angle) ≤
      max (Real.cos (a.place direction - a.place a.stopAngle))
        (Real.cos (a.place direction - a.place a.startAngle)) := by
    rw [a.place_startAngle]
    exact cos_le_max (by linarith) (by linarith [passes.place_le]) (by linarith) (by linarith)
  rw [a.cos_place_sub, a.cos_place_sub, a.cos_place_sub] at turned
  rw [← Real.cos_neg, ← Real.cos_neg (a.startAngle - _), ← Real.cos_neg (a.stopAngle - _), neg_sub, neg_sub, neg_sub,
    max_comm]
  exact turned

private theorem atAngle_eq_of_modEq (c : Point ℝ) (r : ℝ) {x y : ℝ} (same : x ≡ y [PMOD Scalar.twoPi]) :
    c.atAngle r x = c.atAngle r y := by
  obtain ⟨n, rfl⟩ := AddCommGroup.modEq_iff_eq_add_zsmul.mp same
  rw [Point.eq_iff, Point.atAngle_x, Point.atAngle_x, Point.atAngle_y, Point.atAngle_y, zsmul_eq_mul,
    Scalar.twoPi_real, Real.cos_add_int_mul_two_pi, Real.sin_add_int_mul_two_pi]
  exact ⟨rfl, rfl⟩

theorem has_ends (a : Arc ℝ) : ∀ p ∈ a.ends, a.Has p := by
  have stop : a.Has (a.c.atAngle a.r a.stopAngle) := ⟨_, .inr rfl, rfl⟩
  have start : a.Has (a.c.atAngle a.r a.startAngle) := by
    by_cases same : a.startAngle ≡ a.stopAngle [PMOD Scalar.twoPi]
    · rwa [atAngle_eq_of_modEq _ _ same]
    · refine ⟨_, .inl (covers_iff.mpr ?_), rfl⟩
      rw [place_startAngle]
      exact lt_toIcoMod Scalar.twoPi_pos same
  rw [ends, List.forall_mem_cons, List.forall_mem_singleton]
  exact ⟨start, stop⟩

theorem ends_eq (first : a.c.distance a.p0 = a.r) (last : a.c.distance a.p1 = a.r) : a.ends = [a.p0, a.p1] := by
  have start := a.c.atAngle_angleFrom a.p0
  have stop := a.c.atAngle_angleFrom a.p1
  rw [first] at start
  rw [last] at stop
  rw [ends, startAngle, stopAngle, start, stop]

end Arc
end Curves

section Inside

variable {corner0 corner1 : Point ℝ}

namespace Line

variable {l : Line ℝ} {p : Point ℝ}

private theorem reach_le_of_spans (on : l.Spans p) (direction : ℝ) :
    p.reach direction ≤ max (l.p0.reach direction) (l.p1.reach direction) := by
  obtain ⟨r, start, stop, x, y⟩ := on
  have mean : p.reach direction = (1 - r) * l.p0.reach direction + r * l.p1.reach direction := by
    rw [Point.reach, Point.reach, Point.reach, x, y]
    ring
  have first := mul_le_mul_of_nonneg_left (le_max_left (l.p0.reach direction) (l.p1.reach direction))
    (sub_nonneg.mpr stop)
  have last := mul_le_mul_of_nonneg_left (le_max_right (l.p0.reach direction) (l.p1.reach direction)) start
  linarith

private theorem inside_iff :
    (∀ p, l.Spans p → p.Inside corner0 corner1) ↔ l.p0.Inside corner0 corner1 ∧ l.p1.Inside corner0 corner1 := by
  refine ⟨fun all => ⟨all _ l.spans_p0, all _ l.spans_p1⟩, fun ⟨first, last⟩ p on => ?_⟩
  refine Point.inside_of_outreached fun direction _ => ?_
  rcases le_max_iff.mp (reach_le_of_spans on direction) with short | short
  · exact ⟨_, first, short⟩
  · exact ⟨_, last, short⟩

end Line

namespace Circle

variable {c : Circle ℝ} {p : Point ℝ}

theorem reach_le (on : c.c.distance p = c.r) (direction : ℝ) :
    p.reach direction ≤ (c.c.atAngle c.r direction).reach direction := by
  have round : 0 ≤ c.r := on ▸ Point.distance_nonneg _ _
  rw [← c.c.atAngle_angleFrom p, on]
  apply Point.reach_atAngle_le c.c round
  rw [sub_self, Real.cos_zero]
  exact Real.cos_le_one _

private theorem inside_iff (round : 0 ≤ c.r) :
    (∀ p, c.c.distance p = c.r → p.Inside corner0 corner1) ↔
      ∀ direction ∈ quarterTurns, (c.c.atAngle c.r direction).Inside corner0 corner1 := by
  constructor
  · intro all direction _
    exact all _ ((Point.distance_atAngle ..).trans (abs_of_nonneg round))
  · intro furthest p on
    exact Point.inside_of_outreached fun direction quarter => ⟨_, furthest direction quarter, reach_le on direction⟩

end Circle

namespace Arc

variable {a : Arc ℝ}

private theorem inside_iff (round : 0 ≤ a.r) :
    (∀ p, a.Has p → p.Inside corner0 corner1) ↔
      (∀ p ∈ a.ends, p.Inside corner0 corner1) ∧
        ∀ direction ∈ quarterTurns, a.covers direction = true → (a.c.atAngle a.r direction).Inside corner0 corner1 := by
  constructor
  · intro all
    exact ⟨fun p last => all p (a.has_ends p last), fun direction _ covered => all _ ⟨_, .inl covered, rfl⟩⟩
  · rintro ⟨last, furthest⟩ p ⟨angle, passes, rfl⟩
    rw [ends, List.forall_mem_cons, List.forall_mem_singleton] at last
    refine Point.inside_of_outreached fun direction quarter => ?_
    -- The curve goes furthest at the angle of the direction if it passes there, or else at an end.
    by_cases covered : a.covers direction = true
    · refine ⟨_, furthest direction quarter covered, ?_⟩
      exact Circle.reach_le (c := a.circle) ((Point.distance_atAngle ..).trans (abs_of_nonneg round)) direction
    · rcases le_max_iff.mp (passes.cos_le covered) with short | short
      · exact ⟨_, last.1, Point.reach_atAngle_le a.c round short⟩
      · exact ⟨_, last.2, Point.reach_atAngle_le a.c round short⟩

end Arc

namespace Figure

variable {f : Figure ℝ}

theorem boundary_subset_extremes (f : Figure ℝ) : f.boundary ⊆ f.extremes := by
  cases f with
  | arc a => exact List.subset_append_left ..
  | _ => exact List.nil_subset _

theorem has_ends (f : Figure ℝ) : ∀ p ∈ f.ends, f.Has p := by
  cases f with
  | arc a => exact a.has_ends
  | _ => exact List.forall_mem_nil _

/-- The points looked at tell where a figure is, except that they have the boundary points of an arc for the ends of
its curve. -/
theorem extremes_inside (round : ∀ c, f.asCircle? = some c → 0 ≤ c.r) :
    ((∀ p ∈ f.extremes, p.Inside corner0 corner1) ∧ ∀ p ∈ f.ends, p.Inside corner0 corner1) ↔
      f.Inside corner0 corner1 ∧ ∀ p ∈ f.boundary, p.Inside corner0 corner1 := by
  cases f with
  | point q => simp [extremes, ends, boundary, Inside, Has]
  | line l =>
    simp [extremes, ends, boundary, Inside, Has, Line.inside_iff]
  | circle c =>
    simp only [extremes, ends, boundary, Inside, Has, List.forall_mem_map, Circle.inside_iff (round c rfl)]
  | arc a =>
    have looked : (∀ p ∈ extremes (.arc a), p.Inside corner0 corner1) ↔
        (∀ p ∈ boundary (.arc a), p.Inside corner0 corner1) ∧ ∀ direction ∈ quarterTurns, a.covers direction = true →
          (a.c.atAngle a.r direction).Inside corner0 corner1 := by
      simp only [extremes, boundary, List.forall_mem_append, List.forall_mem_map, List.mem_filter, and_imp]
    rw [looked, Inside]
    simp only [Has, ends]
    rw [Arc.inside_iff (round a.circle rfl)]
    tauto

end Figure

end Inside

end PlaneSketch
