import PlaneSketch.Proofs.Relation.Midpoint
import PlaneSketch.Proofs.Relation.Owned
import PlaneSketch.Proofs.Solver.Averaging
import PlaneSketch.Proofs.Solver.Instalments

/-! Radii under relaxation, in exact numbers. All that a relation wants a radius to be is a distance or a mean of
radii, so a radius that is not negative stays so, as long as nothing else is linked to it or averaged with it. -/
namespace PlaneSketch

open Related Constraint

namespace Figure

variable {κ : Type}

def points : Figure κ → List (Point κ)
  | .point p => [p]
  | f => f.parts

def radii (f : Figure κ) : List κ := (f.asCircle?.map Circle.r).toList

end Figure

def Operand.figure? : Operand → Option (Figure Variable)
  | .figure f => some f
  | .bare _ => none

namespace Sketch

section Parts

variable {α : Type} (sketch : Sketch α Relation)

/-- The figures of a sketch, and those that its relations were built from. -/
def figures : List (Figure Variable) :=
  sketch.entities.map Entity.figure ++ sketch.relations.flatMap fun r => (operands r).filterMap Operand.figure?

def points : List (Point Variable) := sketch.figures.flatMap Figure.points

def radii : List Variable := sketch.figures.flatMap Figure.radii

/-- The variable is linked to a radius, or is one. -/
def NamesRadius (s : Store α) (v : Variable) : Prop := ∃ r ∈ sketch.radii, s.isLinked v r = true

instance (s : Store α) (v : Variable) : Decidable (sketch.NamesRadius s v) :=
  inferInstanceAs (Decidable (∃ r ∈ sketch.radii, s.isLinked v r = true))

/-- No coordinate is linked to a radius, and where values are to be equal all of them are radii or none is. -/
structure RadiiApart (s : Store α) : Prop where
  points : ∀ p ∈ sketch.points, ∀ v ∈ p.toList, ¬sketch.NamesRadius s v
  values : ∀ vs, Relation.equalValues vs ∈ sketch.relations →
    (∀ v ∈ vs, sketch.NamesRadius s v) ∨ ∀ v ∈ vs, ¬sketch.NamesRadius s v

variable {sketch}

private theorem figure_mem_figures {relation : Relation} (related : relation ∈ sketch.relations)
    {f : Figure Variable} (shown : .figure f ∈ operands relation) : f ∈ sketch.figures :=
  List.mem_append_right _ (List.mem_flatMap.mpr ⟨relation, related, List.mem_filterMap.mpr ⟨_, shown, rfl⟩⟩)

private theorem mem_points {relation : Relation} (related : relation ∈ sketch.relations) {f : Figure Variable}
    (shown : .figure f ∈ operands relation) {p : Point Variable} (part : p ∈ f.points) : p ∈ sketch.points :=
  List.mem_flatMap.mpr ⟨f, figure_mem_figures related shown, part⟩

theorem RadiiApart.sameNames {s t : Store α} (apart : sketch.RadiiApart s) (names : Store.SameNames s t) :
    sketch.RadiiApart t := by
  have same : sketch.NamesRadius t = sketch.NamesRadius s := by
    funext v
    simp only [NamesRadius, names.isLinked]
  exact ⟨same ▸ apart.points, same ▸ apart.values⟩

end Parts

section Exact

variable {sketch : Sketch ℝ Relation} {s : Store ℝ}

private theorem RadiiApart.towardPoint (apart : sketch.RadiiApart s) {p : Point Variable}
    (inside : p ∈ sketch.points)
    {goal : Point ℝ} {delta : Delta ℝ} (member : delta ∈ Delta.towardPoint s p goal) :
    ¬sketch.NamesRadius s delta.target := by
  have target : delta.target ∈ (Delta.towardPoint s p goal).map Delta.target := List.mem_map_of_mem member
  exact apart.points p inside _ target

private theorem goal_nonneg (apart : sketch.RadiiApart s) (start : ∀ r ∈ sketch.radii, 0 ≤ s.value r)
    {relation : Relation}
    (related : relation ∈ sketch.relations) {delta : Delta ℝ} (member : delta ∈ Relation.deltas s relation)
    (radius : sketch.NamesRadius s delta.target) : 0 ≤ s.value delta.target + delta.amount := by
  have point : ∀ {f : Figure Variable} {p : Point Variable} {goal : Point ℝ}, .figure f ∈ operands relation →
      p ∈ f.points → delta ∉ Delta.towardPoint s p goal := fun shown part proposed =>
    apart.towardPoint (mem_points related shown part) proposed radius
  cases relation with
  | midpoint p line =>
    have first : .figure (.point p) ∈ operands (Relation.midpoint p line) := List.mem_cons_self
    have second : .figure (.line line) ∈ operands (Relation.midpoint p line) :=
      List.mem_cons_of_mem _ List.mem_cons_self
    rcases List.mem_append.mp member with member | head
    · rcases List.mem_append.mp member with here | stop
      · exact absurd here (point first List.mem_cons_self)
      · exact absurd stop (point second (List.mem_cons_of_mem _ List.mem_cons_self))
    · exact absurd head (point second List.mem_cons_self)
  | equalValues vs =>
    obtain ⟨v, listed, rfl⟩ := List.mem_map.mp member
    have all := (apart.values vs related).resolve_right fun none => none v listed radius
    rw [Delta.toward, add_sub_cancel]
    apply Relation.mean_nonneg
    rw [List.forall_mem_map]
    intro w among
    obtain ⟨r, known, linked⟩ := all w among
    exact Store.value_of_isLinked linked ▸ start r known
  | colinearPoints points =>
    rw [Relation.deltas] at member
    split at member
    · cases member
    · obtain ⟨p, listed, here⟩ := List.mem_flatMap.mp member
      exact absurd here (point (List.mem_map_of_mem listed) List.mem_cons_self)
  | pointOnCircle p circle =>
    have first : .figure (.point p) ∈ operands (Relation.pointOnCircle p circle) := List.mem_cons_self
    have second : .figure (.circle circle) ∈ operands (Relation.pointOnCircle p circle) :=
      List.mem_cons_of_mem _ List.mem_cons_self
    rcases List.mem_append.mp member with member | reach
    · rcases List.mem_append.mp member with here | center
      · exact absurd here (point first List.mem_cons_self)
      · exact absurd center (point second List.mem_cons_self)
    · obtain rfl := List.mem_singleton.mp reach
      rw [Delta.toward, add_sub_cancel]
      exact Point.distance_nonneg _ _
  | equalLength lines =>
    obtain ⟨line, listed, rescaled⟩ := List.mem_flatMap.mp member
    have shown : .figure (.line line) ∈ operands (Relation.equalLength lines) := List.mem_map_of_mem listed
    rcases List.mem_append.mp rescaled with head | stop
    · exact absurd head (point shown List.mem_cons_self)
    · exact absurd stop (point shown (List.mem_cons_of_mem _ List.mem_cons_self))
  | tangentLine line circle =>
    have first : .figure (.line line) ∈ operands (Relation.tangentLine line circle) := List.mem_cons_self
    have second : .figure (.circle circle) ∈ operands (Relation.tangentLine line circle) :=
      List.mem_cons_of_mem _ List.mem_cons_self
    rcases List.mem_append.mp member with member | stop
    · rcases List.mem_append.mp member with member | head
      · rcases List.mem_cons.mp member with rfl | center
        · rw [Delta.toward, add_sub_cancel]
          exact Point.distance_nonneg _ _
        · exact absurd center (point second List.mem_cons_self)
      · exact absurd head (point first List.mem_cons_self)
    · exact absurd stop (point first (List.mem_cons_of_mem _ List.mem_cons_self))

private theorem radius_pass_nonneg (apart : sketch.RadiiApart s) (start : ∀ r ∈ sketch.radii, 0 ≤ s.value r)
    {factor : ℝ}
    (fraction : factor ∈ Set.Icc 0 1) : ∀ r ∈ sketch.radii, 0 ≤ (Relation.pass factor sketch.relations s).value r := by
  intro r known
  refine Relation.value_pass_mem (convex_Ici 0) fraction (start r known) fun relation related delta own linked => ?_
  exact goal_nonneg apart start related own ⟨r, known, linked⟩

private theorem radius_iterate_nonneg (apart : sketch.RadiiApart s)
    (start : ∀ r ∈ sketch.radii, 0 ≤ s.value r) {factor : ℝ} (fraction : factor ∈ Set.Icc 0 1) (n : Nat) :
    ∀ r ∈ sketch.radii, 0 ≤ ((Relation.pass factor sketch.relations)^[n] s).value r := by
  induction n with
  | zero => exact start
  | succ n ih =>
    rw [Function.iterate_succ_apply']
    have moved := Relation.moved_iterate_pass factor sketch.relations s n
    exact radius_pass_nonneg (apart.sameNames moved.names) ih fraction

/-- No solve and no pass of one turns a radius negative, whatever figures are held. -/
theorem radii_stay_nonneg (valid : sketch.config.validate = .ok ()) (apart : sketch.RadiiApart s)
    (start : ∀ r ∈ sketch.radii, 0 ≤ s.value r) (held : List EntityId) (damped : Bool) :
    let solve := sketch.solve held damped s
    let guard := s.guardFor ((held.filterMap sketch.figure?).flatMap Figure.toList)
    let state := fun n => (Relation.pass (sketch.config.stepFactor damped) sketch.relations)^[n] (s.hold guard)
    solve.fault = none ∧ (∀ n, ∀ r ∈ sketch.radii, 0 ≤ (state n).value r) ∧
      ∀ r ∈ sketch.radii, 0 ≤ solve.store.value r := by
  intro solve guard state
  have fraction : sketch.config.stepFactor damped ∈ Set.Icc 0 1 := by
    obtain ⟨positive, below⟩ := Config.stepFactor_of_validate valid damped
    rw [Scalar.numeral_zero] at positive
    rw [Scalar.numeral_one] at below
    exact ⟨positive.le, below.le⟩
  have holding := s.sameNames_hold guard
  have values : (s.hold guard).value = s.value := holding.value_congr (s.valueAt_hold guard)
  have along := radius_iterate_nonneg (apart.sameNames holding) (values ▸ start) fraction
  refine ⟨Relation.fault_relaxAtMost .., along, ?_⟩
  obtain ⟨-, left, -⟩ := solve_passes sketch.config sketch.relations sketch.entities.length
    (held.filterMap sketch.figure?) damped s
  have released : solve.store.value = (state solve.result.iterations).value := by
    rw [show solve.store = _ from left]
    exact (Store.sameNames_release _ _).value_congr (Store.valueAt_release _ _)
  rw [released]
  exact along solve.result.iterations

end Exact

section Wheels

def rim : Circle Variable := ⟨⟨⟨0⟩, ⟨1⟩⟩, ⟨2⟩⟩

def hub : Circle Variable := ⟨⟨⟨3⟩, ⟨4⟩⟩, ⟨5⟩⟩

def fender : Arc Variable := ⟨⟨⟨6⟩, ⟨7⟩⟩, ⟨8⟩, ⟨⟨9⟩, ⟨10⟩⟩, ⟨⟨11⟩, ⟨12⟩⟩⟩

def valve : Point Variable := ⟨⟨13⟩, ⟨14⟩⟩

def road : Line Variable := ⟨⟨⟨15⟩, ⟨16⟩⟩, ⟨⟨17⟩, ⟨18⟩⟩⟩

noncomputable def wheels : Sketch ℝ Relation where
  entities := [⟨⟨1⟩, .circle rim⟩, ⟨⟨2⟩, .circle hub⟩, ⟨⟨3⟩, .arc fender⟩, ⟨⟨4⟩, .point valve⟩, ⟨⟨5⟩, .line road⟩]
  relations := [.pointOnCircle valve rim, .tangentLine road fender.circle, .equalValues [rim.r, hub.r]]
  config := Config.standard

noncomputable def wheelStore (far : ℝ) : Store ℝ :=
  ⟨#[⟨0, false⟩, ⟨0, false⟩, ⟨1, false⟩, ⟨0, true⟩, ⟨-far, false⟩, ⟨0, false⟩, ⟨-1, true⟩, ⟨far, false⟩, ⟨-1, false⟩,
      ⟨-far, false⟩, ⟨-1, false⟩, ⟨far, false⟩, ⟨1, false⟩, ⟨far, false⟩, ⟨-far, false⟩, ⟨-far, true⟩, ⟨far, false⟩],
    #[0, 1, 2, 3, 4, 5, 6, 7, 2, 8, 9, 10, 11, 12, 13, 14, 15, 16, 15]⟩

private theorem wheels_apart : wheels.RadiiApart (wheelStore 9) where
  points := by decide
  values := by
    intro vs related
    simp only [wheels, List.mem_cons, List.not_mem_nil, or_false, reduceCtorEq, false_or, Relation.equalValues.injEq]
      at related
    subst related
    exact .inl (by decide)

theorem radii_stay_nonneg_wheels :
    let s := wheelStore 9
    wheels.config.validate = .ok () ∧ wheels.RadiiApart s ∧ (∀ r ∈ wheels.radii, 0 ≤ s.value r) ∧
      ∀ held damped, ∀ r ∈ wheels.radii, 0 ≤ (wheels.solve held damped s).store.value r := by
  intro s
  have valid : wheels.config.validate = .ok () := by
    change (Config.standard : Config ℝ).validate = .ok ()
    rw [Config.standard_real, Config.validate_real]
    norm_num
  have apart : wheels.RadiiApart s := wheels_apart
  have start : ∀ r ∈ wheels.radii, 0 ≤ s.value r := by
    have values : wheels.radii.map s.value = [1, 0, 1, 1, 1] := rfl
    rw [← List.forall_mem_map (P := fun x : ℝ => 0 ≤ x), values]
    norm_num
  exact ⟨valid, apart, start, fun held damped => (radii_stay_nonneg valid apart start held damped).2.2⟩

end Wheels

end Sketch

end PlaneSketch
