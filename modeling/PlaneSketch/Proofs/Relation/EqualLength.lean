import PlaneSketch.Proofs.Relation.Correction
import PlaneSketch.Proofs.Solver.Averaging
import PlaneSketch.Proofs.Solver.Instalments

/-! What relaxation makes of free lines that are to be equally long, in exact numbers. Each of them is rescaled
about its midpoint, so the mean of the lengths stays and every length comes closer to it at the same rate. -/
namespace PlaneSketch

namespace Point

noncomputable def approach (p goal : Point ℝ) (part : ℝ) : Point ℝ := p + (goal - p).scale part

private theorem direction_scale (v : Point ℝ) {k : ℝ} (positive : 0 < k) :
    (v.direction.scale k).direction = v.direction := by
  have square : (v.direction.scale k).norm ^ 2 = k ^ 2 := by
    rw [norm_sq, scale_x, scale_y]
    linear_combination k ^ 2 * v.direction_sq
  have norm : (v.direction.scale k).norm = k := (sq_eq_sq₀ (norm_nonneg _) positive.le).mp square
  have whole := (v.direction.scale k).direction_scale_norm
  rw [norm, eq_iff] at whole
  exact eq_iff.mpr ⟨mul_right_cancel₀ positive.ne' whole.1, mul_right_cancel₀ positive.ne' whole.2⟩

end Point

namespace Line

noncomputable def approach (l goal : Line ℝ) (part : ℝ) : Line ℝ :=
  ⟨l.p0.approach goal.p0 part, l.p1.approach goal.p1 part⟩

noncomputable def about (center v : Point ℝ) (half : ℝ) : Line ℝ := ⟨center - v.scale half, center + v.scale half⟩

variable (l : Line ℝ) (center v : Point ℝ) {half : ℝ}

private theorem about_midpoint : about (l.p0.midpoint l.p1) l.vector.direction (l.length / 2) = l := by
  have whole := l.vector.direction_scale_norm
  rw [l.norm_vector, Point.eq_iff, Point.scale_x, Point.scale_y, vector_x, vector_y] at whole
  obtain ⟨x, y⟩ := whole
  rw [about, eq_iff, Point.eq_iff, Point.eq_iff]
  simp only [Point.sub_x, Point.sub_y, Point.add_x, Point.add_y, Point.midpoint_x, Point.midpoint_y,
    Point.scale_x, Point.scale_y]
  refine ⟨⟨?_, ?_⟩, ?_, ?_⟩
  · linear_combination -x / 2
  · linear_combination -y / 2
  · linear_combination x / 2
  · linear_combination y / 2

private theorem midpoint_about (half : ℝ) :
    (about center v half).p0.midpoint (about center v half).p1 = center := by
  rw [about, Point.eq_iff, Point.midpoint_x, Point.midpoint_y, Point.sub_x, Point.sub_y, Point.add_x, Point.add_y]
  constructor <;> ring

private theorem length_about (positive : 0 ≤ half) : (about center v.direction half).length = 2 * half :=
  Relation.length_rescaled center v positive

private theorem direction_about (positive : 0 < half) :
    (about center v.direction half).vector.direction = v.direction := by
  have vector : (about center v.direction half).vector = v.direction.scale (2 * half) := by
    rw [Point.eq_iff, vector_x, vector_y, about]
    simp only [Point.sub_x, Point.sub_y, Point.add_x, Point.add_y, Point.scale_x, Point.scale_y]
    constructor <;> ring
  rw [vector, Point.direction_scale v (mul_pos two_pos positive)]

private theorem approach_about (half goal part : ℝ) :
    (about center v half).approach (about center v goal) part =
      about center v ((1 - part) * half + part * goal) := by
  rw [approach, about, about, about, eq_iff, Point.eq_iff, Point.eq_iff]
  simp only [Point.approach, Point.sub_x, Point.sub_y, Point.add_x, Point.add_y, Point.scale_x, Point.scale_y]
  refine ⟨⟨?_, ?_⟩, ?_, ?_⟩ <;> ring

end Line

namespace Relation

open Scalar

private theorem mean_map {xs : List ℝ} (nonempty : xs ≠ []) (scale offset : ℝ) :
    mean (xs.map fun x => scale * x + offset) = scale * mean xs + offset := by
  have count : (xs.length : ℝ) ≠ 0 := by simpa using nonempty
  rw [mean, mean, sum_real, sum_real, List.sum_map_add, List.sum_map_mul_left, List.map_id', List.length_map]
  simp only [ofNat_real, List.map_const', List.sum_replicate, nsmul_eq_mul]
  field_simp

noncomputable def meanLength (s : Store ℝ) (lines : List (Line Variable)) : ℝ :=
  mean (lines.map fun l => (s.line l).length)

/-- The lines have the same midpoints, directions and mean length in both stores, and in the second one their
lengths differ from the mean by `scale` times what they differ from it in the first one. -/
structure Rescaled (lines : List (Line Variable)) (scale : ℝ) (s t : Store ℝ) : Prop where
  midpoint : ∀ l ∈ lines, (t.line l).p0.midpoint (t.line l).p1 = (s.line l).p0.midpoint (s.line l).p1
  direction : ∀ l ∈ lines, (t.line l).vector.direction = (s.line l).vector.direction
  mean : meanLength t lines = meanLength s lines
  deviation : ∀ l ∈ lines,
    (t.line l).length - meanLength t lines = scale * ((s.line l).length - meanLength s lines)

variable {lines : List (Line Variable)} {factor : ℝ} {s t u : Store ℝ}

namespace Rescaled

variable {scale rate : ℝ}

private theorem refl (lines : List (Line Variable)) (s : Store ℝ) : Rescaled lines 1 s s :=
  ⟨fun _ _ => rfl, fun _ _ => rfl, rfl, fun _ _ => (one_mul _).symm⟩

private theorem trans (first : Rescaled lines scale s t) (second : Rescaled lines rate t u) :
    Rescaled lines (rate * scale) s u where
  midpoint l member := (second.midpoint l member).trans (first.midpoint l member)
  direction l member := (second.direction l member).trans (first.direction l member)
  mean := second.mean.trans first.mean
  deviation l member := by rw [second.deviation l member, first.deviation l member, mul_assoc]

private theorem error_eq (rescaled : Rescaled lines scale s t) (positive : 0 ≤ scale) :
    error t (.equalLength lines) = scale * error s (.equalLength lines) := by
  by_cases none : lines = []
  · simp [none, error]
  · have some : ¬lines.isEmpty = true := by simpa using none
    rw [error, error, if_neg some, if_neg some, sum_real, sum_real, List.map_map, List.map_map,
      ← List.sum_map_mul_left]
    congr 1
    apply List.map_congr_left
    intro l member
    change |(t.line l).length - meanLength t lines| = scale * |(s.line l).length - meanLength s lines|
    rw [rescaled.deviation l member, abs_mul, abs_of_nonneg positive]

end Rescaled

theorem half_pos (long : ∀ l ∈ lines, 0 < (s.line l).length) (positive : 0 < factor) (below : factor < 1)
    {l : Line Variable} (member : l ∈ lines) :
    0 < (1 - factor) * ((s.line l).length / 2) + factor * (meanLength s lines / 2) := by
  have own := mul_pos (sub_pos.mpr below) (div_pos (long l member) two_pos)
  have other := mul_nonneg positive.le (div_nonneg (mean_length_nonneg s lines) zero_le_two)
  exact add_pos_of_pos_of_nonneg own other

section Pass

private theorem point_pass {relation : Relation} (untied : s.Untied (owned relation)) (factor : ℝ)
    {p : Point Variable} {goal : Point ℝ} (proposed : Delta.towardPoint s p goal ⊆ deltas s relation) :
    (pass factor [relation] s).point p = (s.point p).approach goal factor := by
  have free : ∀ delta ∈ deltas s relation, s.isConstant delta.target = false :=
    fun delta member => untied.free delta.target (target_mem_owned s relation member)
  obtain ⟨x, rest⟩ := List.cons_subset.mp proposed
  obtain ⟨y, -⟩ := List.cons_subset.mp rest
  have along := value_pass_of_unlinked untied.unlinked factor x (free _ x)
  have across := value_pass_of_unlinked untied.unlinked factor y (free _ y)
  rw [mul_comm factor] at along across
  exact Point.eq_iff.mpr ⟨along, across⟩

variable (untied : s.Untied (owned (.equalLength lines)))
include untied

/-- A pass takes each line part of the way to the mean length. -/
theorem line_pass (factor : ℝ) {l : Line Variable} (member : l ∈ lines) :
    (pass factor [.equalLength lines] s).line l =
      .about ((s.line l).p0.midpoint (s.line l).p1) (s.line l).vector.direction
        ((1 - factor) * ((s.line l).length / 2) + factor * (meanLength s lines / 2)) := by
  let goal : Line ℝ :=
    .about ((s.line l).p0.midpoint (s.line l).p1) (s.line l).vector.direction (meanLength s lines / 2)
  have rescaled : rescale s (meanLength s lines / 2) l ⊆ deltas s (.equalLength lines) :=
    fun delta found => List.mem_flatMap.mpr ⟨l, member, found⟩
  obtain ⟨first, second⟩ := List.append_subset.mp rescaled
  calc (pass factor [.equalLength lines] s).line l = (s.line l).approach goal factor :=
        Line.eq_iff.mpr ⟨point_pass untied factor first, point_pass untied factor second⟩
    _ = (Line.about _ _ ((s.line l).length / 2)).approach goal factor := by rw [(s.line l).about_midpoint]
    _ = _ := Line.approach_about ..

variable (long : ∀ l ∈ lines, 0 < (s.line l).length) (positive : 0 < factor) (below : factor < 1)
include long positive below

theorem length_pass {l : Line Variable} (member : l ∈ lines) :
    ((pass factor [.equalLength lines] s).line l).length =
      (1 - factor) * (s.line l).length + factor * meanLength s lines := by
  rw [line_pass untied factor member, Line.length_about _ _ (half_pos long positive below member).le]
  ring

theorem rescaled_pass : Rescaled lines (1 - factor) s (pass factor [.equalLength lines] s) := by
  have lengths : lines.map (fun l => ((pass factor [.equalLength lines] s).line l).length) =
      (lines.map fun l => (s.line l).length).map fun x => (1 - factor) * x + factor * meanLength s lines := by
    rw [List.map_map]
    exact List.map_congr_left fun l member => length_pass untied long positive below member
  have mean : meanLength (pass factor [.equalLength lines] s) lines = meanLength s lines := by
    by_cases none : lines = []
    · rw [meanLength, meanLength, none, List.map_nil, List.map_nil]
    · rw [meanLength, lengths, mean_map (by simpa using none)]
      change (1 - factor) * meanLength s lines + factor * meanLength s lines = _
      ring
  refine ⟨?_, ?_, mean, ?_⟩
  · intro l member
    rw [line_pass untied factor member, Line.midpoint_about]
  · intro l member
    rw [line_pass untied factor member, Line.direction_about _ _ (half_pos long positive below member)]
  · intro l member
    rw [mean, length_pass untied long positive below member]
    ring

end Pass

private theorem rescaled_iterate (untied : s.Untied (owned (.equalLength lines)))
    (long : ∀ l ∈ lines, 0 < (s.line l).length) (positive : 0 < factor) (below : factor < 1) (n : Nat) :
    let t := (pass factor [.equalLength lines])^[n] s
    t.Untied (owned (.equalLength lines)) ∧ (∀ l ∈ lines, 0 < (t.line l).length) ∧
      Rescaled lines ((1 - factor) ^ n) s t := by
  induction n with
  | zero => exact ⟨untied, long, pow_zero (1 - factor) ▸ .refl lines s⟩
  | succ n ih =>
    intro t
    obtain ⟨untied, long, rescaled⟩ := ih
    have step : t = pass factor [.equalLength lines] ((pass factor [.equalLength lines])^[n] s) :=
      Function.iterate_succ_apply' ..
    rw [step]
    refine ⟨untied.correct _ _, ?_, pow_succ' (1 - factor) n ▸ rescaled.trans ?_⟩
    · intro l member
      have half := half_pos long positive below member
      rw [length_pass untied long positive below member]
      linarith
    · exact rescaled_pass untied long positive below

/-- Relaxing free lines of some length to be equally long keeps their midpoints, their directions and the mean of
their lengths. Each pass leaves the same part of what every length differs from the mean, and of the error. -/
theorem equalLength_only_rescales (positive : 0 < factor) (below : factor < 1)
    (untied : s.Untied (owned (.equalLength lines))) (long : ∀ l ∈ lines, 0 < (s.line l).length) :
    let relation := Relation.equalLength lines
    let state := fun n => (pass factor [relation])^[n] s
    ∀ n, relax factor [relation] (state n) = .ok (state (n + 1)) ∧
      (∀ l ∈ lines, ((state n).line l).p0.midpoint ((state n).line l).p1 = (s.line l).p0.midpoint (s.line l).p1 ∧
        ((state n).line l).vector.direction = (s.line l).vector.direction ∧
        ((state (n + 1)).line l).length - meanLength (state (n + 1)) lines =
          (1 - factor) * (((state n).line l).length - meanLength (state n) lines)) ∧
      meanLength (state n) lines = meanLength s lines ∧
      Constraint.error (state (n + 1)) relation = (1 - factor) * Constraint.error (state n) relation := by
  intro relation state n
  obtain ⟨untied, long, whole⟩ := rescaled_iterate untied long positive below n
  have step : Rescaled lines (1 - factor) (state n) (state (n + 1)) := by
    have last : state (n + 1) = pass factor [relation] (state n) := Function.iterate_succ_apply' ..
    rw [last]
    exact rescaled_pass untied long positive below
  refine ⟨relax_iterate factor [relation] s n, ?_, whole.mean, step.error_eq (sub_nonneg.mpr below.le)⟩
  exact fun l member => ⟨whole.midpoint l member, whole.direction l member, step.deviation l member⟩

section Pair

def levelLine : Line Variable := ⟨⟨⟨0⟩, ⟨1⟩⟩, ⟨⟨2⟩, ⟨3⟩⟩⟩

def uprightLine : Line Variable := ⟨⟨⟨4⟩, ⟨5⟩⟩, ⟨⟨6⟩, ⟨7⟩⟩⟩

noncomputable def pairStore (length bottom top : ℝ) : Store ℝ :=
  ⟨#[⟨0, false⟩, ⟨0, false⟩, ⟨length, false⟩, ⟨0, false⟩, ⟨0, false⟩, ⟨bottom, false⟩, ⟨0, false⟩, ⟨top, false⟩],
    #[0, 1, 2, 3, 4, 5, 6, 7]⟩

variable {length bottom top : ℝ}

private theorem length_levelLine (positive : 0 ≤ length) :
    ((pairStore length bottom top).line levelLine).length = length := by
  have places : (pairStore length bottom top).line levelLine = ⟨⟨0, 0⟩, ⟨length, 0⟩⟩ := rfl
  rw [places, ← sq_eq_sq₀ (Line.length_nonneg _) positive, Line.length_sq, Line.vector_x, Line.vector_y]
  ring

private theorem length_uprightLine (positive : bottom ≤ top) :
    ((pairStore length bottom top).line uprightLine).length = top - bottom := by
  have places : (pairStore length bottom top).line uprightLine = ⟨⟨0, bottom⟩, ⟨0, top⟩⟩ := rfl
  rw [places, ← sq_eq_sq₀ (Line.length_nonneg _) (sub_nonneg.mpr positive), Line.length_sq, Line.vector_x,
    Line.vector_y]
  ring

theorem equalLength_only_rescales_pair :
    let s := pairStore 4 5 13
    let lines := [levelLine, uprightLine]
    let relation := Relation.equalLength lines
    let state := fun n => (pass (1 / 2) [relation])^[n] s
    ((0 : ℝ) < 1 / 2 ∧ (1 / 2 : ℝ) < 1) ∧ s.Untied (owned relation) ∧
      (∀ l ∈ lines, 0 < (s.line l).length) ∧
      ∀ n, meanLength (state n) lines = 6 ∧ Constraint.error (state n) relation = (1 / 2) ^ n * 4 ∧
        ((state n).line levelLine).p0.midpoint ((state n).line levelLine).p1 = ⟨2, 0⟩ := by
  intro s lines relation state
  have positive : (0 : ℝ) < 1 / 2 := by norm_num
  have below : (1 / 2 : ℝ) < 1 := by norm_num
  have untied : s.Untied (owned relation) := by
    refine ⟨by decide, ?_, by decide⟩
    intro v member
    fin_cases member <;> rfl
  have level : (s.line levelLine).length = 4 := length_levelLine (by norm_num)
  have upright : (s.line uprightLine).length = 13 - 5 := length_uprightLine (by norm_num)
  have long : ∀ l ∈ lines, 0 < (s.line l).length := by
    rw [List.forall_mem_cons, List.forall_mem_singleton, level, upright]
    norm_num
  have lengths : lines.map (fun l => (s.line l).length) = [4, 13 - 5] := by
    simp only [lines, List.map_cons, List.map_nil, level, upright]
  have middle : meanLength s lines = 6 := by
    rw [meanLength, lengths]
    norm_num [mean]
  have start : Constraint.error s relation = 4 := by
    change error s (.equalLength lines) = 4
    rw [error, if_neg (by decide), lengths]
    norm_num [mean]
  have scaled := equalLength_only_rescales positive below untied long
  refine ⟨⟨positive, below⟩, untied, long, fun n => ⟨(scaled n).2.2.1.trans middle, ?_, ?_⟩⟩
  · induction n with
    | zero =>
      rw [pow_zero, one_mul]
      exact start
    | succ n ih =>
      rw [(scaled n).2.2.2, ih]
      ring
  · rw [((scaled n).2.1 levelLine List.mem_cons_self).1, Point.eq_iff, Point.midpoint_x, Point.midpoint_y]
    change ((0 : ℝ) + 4) / 2 = 2 ∧ ((0 : ℝ) + 0) / 2 = 0
    norm_num

end Pair

end Relation

end PlaneSketch
