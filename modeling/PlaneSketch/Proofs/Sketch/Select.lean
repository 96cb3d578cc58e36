import PlaneSketch.Proofs.Geometry.Extent
import PlaneSketch.Sketch.Select

/-! Which figures a rectangle selects, in exact numbers: those that lie inside, as long as the boundary points of arcs
are inside just where the ends of their curves are. Boundary points that have been left behind are looked at all the
same, so that an arc is selected by where its curve once was. -/
namespace PlaneSketch.Sketch

section Inside

variable {ρ : Type} {corner0 corner1 : Point ℝ}

theorem extremes_within (f : Figure ℝ) :
    f.extremes.all (Point.within corner0 corner1) = true ↔ ∀ p ∈ f.extremes, p.Inside corner0 corner1 := by
  simp only [List.all_eq_true, Point.within_iff]

open Classical in
/-- A figure is selected and has the ends of its curve inside just if it lies inside and has its boundary points there,
too. So where ends and boundary points are alike, the selected figures are those that lie inside. -/
theorem selectWithin_inside (sketch : Sketch ℝ ρ) (s : Store ℝ) (corner0 corner1 : Point ℝ)
    (round : ∀ e ∈ sketch.entities, ∀ c, (s.figure e.figure).asCircle? = some c → 0 ≤ c.r) :
    (∃ chosen : Entity → Bool,
      sketch.selectWithin s corner0 corner1 = (sketch.entities.filter chosen).map Entity.id ∧
      ∀ e ∈ sketch.entities,
        (chosen e = true ∧ (∀ p ∈ (s.figure e.figure).ends, p.Inside corner0 corner1) ↔
          (s.figure e.figure).Inside corner0 corner1 ∧
            ∀ p ∈ (s.figure e.figure).boundary, p.Inside corner0 corner1)) ∧
    ((∀ e ∈ sketch.entities, (∀ p ∈ (s.figure e.figure).boundary, p.Inside corner0 corner1) ↔
        ∀ p ∈ (s.figure e.figure).ends, p.Inside corner0 corner1) →
      sketch.selectWithin s corner0 corner1 =
        (sketch.entities.filter fun e => (s.figure e.figure).Inside corner0 corner1).map Entity.id) := by
  refine ⟨⟨_, rfl, fun e member => ?_⟩, fun alike => ?_⟩
  · rw [extremes_within]
    exact Figure.extremes_inside (round e member)
  · rw [selectWithin]
    congr 1
    refine List.filter_congr fun e member => ?_
    have told := @Figure.extremes_inside corner0 corner1 _ (round e member)
    rw [Bool.eq_iff_iff, extremes_within, decide_eq_true_eq]
    constructor
    · intro looked
      have bounds := fun p listed => looked p (Figure.boundary_subset_extremes _ listed)
      exact (told.mp ⟨looked, (alike e member).mp bounds⟩).1
    · intro inside
      have ends := fun p last => inside p (Figure.has_ends _ p last)
      exact (told.mpr ⟨inside, (alike e member).mpr ends⟩).1

end Inside

section Bend

noncomputable def bend : Sketch ℝ Relation where
  entities := [⟨⟨1⟩, .arc ⟨⟨⟨0⟩, ⟨1⟩⟩, ⟨2⟩, ⟨⟨3⟩, ⟨4⟩⟩, ⟨⟨5⟩, ⟨6⟩⟩⟩⟩]
  relations := []
  config := Config.standard

noncomputable def bendStore (radius : ℝ) : Store ℝ :=
  ⟨#[⟨0, true⟩, ⟨0, true⟩, ⟨radius, false⟩, ⟨0, false⟩, ⟨-1, false⟩, ⟨1, false⟩, ⟨0, false⟩], #[0, 1, 2, 3, 4, 5, 6]⟩

noncomputable def bendArc (radius : ℝ) : Arc ℝ := ⟨⟨0, 0⟩, radius, ⟨0, -1⟩, ⟨1, 0⟩⟩

variable {radius direction : ℝ}

theorem figure_bend (radius : ℝ) {e : Entity} (member : e ∈ bend.entities) :
    (bendStore radius).figure e.figure = .arc (bendArc radius) := by
  obtain rfl := List.mem_singleton.mp member
  rfl

private theorem startAngle_bend : (bendArc radius).startAngle = -(Real.pi / 2) := by
  have below : (bendArc radius).startAngle = Complex.arg ⟨0 - 0, -1 - 0⟩ := rfl
  have down : (⟨0 - 0, -1 - 0⟩ : ℂ) = -Complex.I := by
    rw [Complex.ext_iff]
    norm_num
  rw [below, down, Complex.arg_neg_I]

theorem stopAngle_bend : (bendArc radius).stopAngle = 0 := by
  have ahead : (bendArc radius).stopAngle = Complex.arg ⟨1 - 0, 0 - 0⟩ := rfl
  rw [ahead, Complex.arg_eq_zero_iff]
  norm_num

private theorem covers_bend (quarter : direction ∈ quarterTurns)
    (covered : (bendArc radius).covers direction = true) : direction = 3 * (Real.pi / 2) := by
  have positive := Real.pi_pos
  have place {angle : ℝ} (low : 0 ≤ angle) (high : angle ≤ Real.pi) : (bendArc radius).place angle = angle := by
    refine (toIcoMod_eq_self Scalar.twoPi_pos).mpr ⟨?_, ?_⟩
    · rw [startAngle_bend]
      linarith
    · rw [startAngle_bend, Scalar.twoPi_real]
      linarith
  rw [Arc.covers_iff, stopAngle_bend, place le_rfl positive.le] at covered
  simp only [quarterTurns_real, List.mem_cons, List.not_mem_nil, or_false] at quarter
  rcases quarter with rfl | rfl | rfl | last
  · rw [place le_rfl positive.le] at covered
    linarith
  · rw [place (by linarith) (by linarith)] at covered
    linarith
  · rw [place positive.le le_rfl] at covered
    linarith
  · exact last

theorem selectWithin_bend (round : 0 ≤ radius) (small : radius < 11) :
    bend.selectWithin (bendStore radius) ⟨-1, -11⟩ ⟨2, 1⟩ = [⟨1⟩] := by
  have inside : ∀ p ∈ (Figure.arc (bendArc radius)).extremes, p.Inside ⟨-1, -11⟩ ⟨2, 1⟩ := by
    rw [Figure.extremes, List.forall_mem_append, List.forall_mem_cons, List.forall_mem_singleton, List.forall_mem_map]
    refine ⟨⟨?_, ?_⟩, fun direction listed => ?_⟩
    · norm_num [Point.Inside, bendArc]
    · norm_num [Point.Inside, bendArc]
    · obtain ⟨quarter, covered⟩ := List.mem_filter.mp listed
      rw [covers_bend quarter covered, Point.atAngle_down]
      norm_num [Point.Inside, bendArc]
      constructor <;> linarith
  rw [selectWithin, List.filter_eq_self.mpr]
  · rfl
  · intro e member
    rw [figure_bend radius member]
    exact (extremes_within _).mpr inside

theorem round_bend (round : 0 ≤ radius) :
    ∀ e ∈ bend.entities, ∀ c, ((bendStore radius).figure e.figure).asCircle? = some c → 0 ≤ c.r := by
  intro e member
  rw [figure_bend radius member]
  rintro c ⟨⟩
  exact round

open Classical in
theorem selectWithin_inside_bend :
    (∀ e ∈ bend.entities, ∀ c, ((bendStore 1).figure e.figure).asCircle? = some c → 0 ≤ c.r) ∧
      (∀ e ∈ bend.entities, (∀ p ∈ ((bendStore 1).figure e.figure).boundary, p.Inside ⟨-1, -11⟩ ⟨2, 1⟩) ↔
        ∀ p ∈ ((bendStore 1).figure e.figure).ends, p.Inside ⟨-1, -11⟩ ⟨2, 1⟩) ∧
      (bend.entities.filter fun e => ((bendStore 1).figure e.figure).Inside ⟨-1, -11⟩ ⟨2, 1⟩).map Entity.id =
        [⟨1⟩] := by
  have round := round_bend zero_le_one
  have ends : (bendArc 1).ends = [(bendArc 1).p0, (bendArc 1).p1] := by
    apply Arc.ends_eq
    · norm_num [Point.distance_eq, bendArc]
    · norm_num [Point.distance_eq, bendArc]
  have alike : ∀ e ∈ bend.entities, (∀ p ∈ ((bendStore 1).figure e.figure).boundary, p.Inside ⟨-1, -11⟩ ⟨2, 1⟩) ↔
      ∀ p ∈ ((bendStore 1).figure e.figure).ends, p.Inside ⟨-1, -11⟩ ⟨2, 1⟩ := by
    intro e member
    rw [figure_bend 1 member, Figure.boundary, Figure.ends, ends]
  have selected := (selectWithin_inside bend (bendStore 1) ⟨-1, -11⟩ ⟨2, 1⟩ round).2 alike
  exact ⟨round, alike, selected.symm.trans (selectWithin_bend zero_le_one (by norm_num))⟩

open Classical in
/-- With ten times the radius the bend is selected as before, though the end of its curve is outside. -/
theorem selectWithin_widened_bend :
    (∀ e ∈ bend.entities, ∀ c, ((bendStore 10).figure e.figure).asCircle? = some c → 0 ≤ c.r) ∧
      bend.selectWithin (bendStore 10) ⟨-1, -11⟩ ⟨2, 1⟩ = [⟨1⟩] ∧
      (bend.entities.filter fun e => ((bendStore 10).figure e.figure).Inside ⟨-1, -11⟩ ⟨2, 1⟩).map Entity.id = [] := by
  refine ⟨round_bend (by norm_num), selectWithin_bend (by norm_num) (by norm_num), ?_⟩
  have outside : ¬(Figure.arc (bendArc 10)).Inside ⟨-1, -11⟩ ⟨2, 1⟩ := by
    intro inside
    have last := (inside _ ⟨_, .inr rfl, rfl⟩).1.2
    rw [stopAngle_bend, Point.atAngle_x, Real.cos_zero] at last
    norm_num [bendArc] at last
  rw [List.map_eq_nil_iff, List.filter_eq_nil_iff]
  intro e member
  rw [figure_bend 10 member, decide_eq_true_eq]
  exact outside

end Bend

end PlaneSketch.Sketch
