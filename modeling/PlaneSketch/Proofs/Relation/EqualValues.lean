import PlaneSketch.Proofs.Solver.Averaging
import PlaneSketch.Proofs.Solver.Instalments

/-! What relaxation makes of values that are to be equal, in exact numbers. Every goal is a mean of them, so
that no value leaves the interval they started in, however many relations pull at it. A single relation
draws its values together, all at one rate if they are free. -/
namespace PlaneSketch

namespace Scalar

theorem spread_eq {xs : List ℝ} {low high : ℝ} (first : low ∈ xs) (last : high ∈ xs)
    (between : ∀ x ∈ xs, low ≤ x ∧ x ≤ high) : spread xs = high - low := by
  obtain ⟨least, lowest, most, highest, spread, all⟩ := exists_spread (List.ne_nil_of_mem first)
  have bottom : least = low := le_antisymm (all low first).1 (between least lowest).1
  have top : most = high := le_antisymm (between most highest).2 (all high last).2
  rw [spread, top, bottom]

private theorem spread_map {scale : ℝ} (positive : 0 ≤ scale) (offset : ℝ) (xs : List ℝ) :
    spread (xs.map fun x => scale * x + offset) = scale * spread xs := by
  by_cases empty : xs = []
  · simp [empty, spread]
  · obtain ⟨low, first, high, last, spread, between⟩ := exists_spread empty
    have mapped : Scalar.spread (xs.map fun x => scale * x + offset) =
        (scale * high + offset) - (scale * low + offset) := by
      apply spread_eq (List.mem_map_of_mem first) (List.mem_map_of_mem last)
      rw [List.forall_mem_map]
      intro x member
      obtain ⟨above, below⟩ := between x member
      exact ⟨by gcongr, by gcongr⟩
    rw [mapped, spread]
    ring

private theorem spread_le_of_forall {xs ys : List ℝ}
    (within : ∀ x ∈ xs, ∃ low ∈ ys, ∃ high ∈ ys, low ≤ x ∧ x ≤ high) : spread xs ≤ spread ys := by
  by_cases empty : xs = []
  · by_cases none : ys = []
    · rw [empty, none]
    · obtain ⟨low, first, high, -, spread, between⟩ := exists_spread none
      have zero : Scalar.spread ([] : List ℝ) = 0 := by simp [Scalar.spread]
      rw [empty, zero, spread, sub_nonneg]
      exact (between low first).2
  · obtain ⟨low, first, high, last, spread, -⟩ := exists_spread empty
    obtain ⟨bottom, lowest, -, -, above, -⟩ := within low first
    obtain ⟨-, -, top, highest, -, below⟩ := within high last
    obtain ⟨least, -, most, -, whole, between⟩ := exists_spread (List.ne_nil_of_mem lowest)
    rw [spread, whole]
    exact sub_le_sub (below.trans (between top highest).2) ((between bottom lowest).1.trans above)

end Scalar

namespace Relation

open Scalar

variable {factor : ℝ} {s : Store ℝ} {vs : List Variable}

theorem value_add_equalValues {delta : Delta ℝ} (member : delta ∈ deltas s (.equalValues vs)) :
    s.value delta.target + delta.amount = mean (vs.map s.value) := by
  obtain ⟨v, -, rfl⟩ := List.mem_map.mp member
  exact add_sub_cancel _ _

section Many

variable (lists : List (List Variable))

private theorem value_iterate_equalValues {K : Set ℝ} (convex : Convex ℝ K) (fraction : factor ∈ Set.Icc 0 1)
    (start : ∀ v ∈ lists.flatten, s.value v ∈ K) (n : Nat) :
    ∀ v ∈ lists.flatten, ((pass factor (lists.map .equalValues))^[n] s).value v ∈ K := by
  induction n with
  | zero => exact start
  | succ n ih =>
    intro v member
    rw [Function.iterate_succ_apply']
    refine value_pass_mem convex fraction (ih v member) fun relation related delta own _ => ?_
    obtain ⟨ws, listed, rfl⟩ := List.mem_map.mp related
    rw [value_add_equalValues own]
    apply mean_mem convex
    · obtain ⟨w, among, -⟩ := List.mem_map.mp own
      exact List.ne_nil_of_mem (List.mem_map_of_mem among)
    · rw [List.forall_mem_map]
      exact fun w among => ih w (List.mem_flatten.mpr ⟨ws, listed, among⟩)

theorem value_between_equalValues (fraction : factor ∈ Set.Icc 0 1) (n : Nat) {v : Variable}
    (member : v ∈ lists.flatten) :
    ∃ low ∈ lists.flatten, ∃ high ∈ lists.flatten,
      s.value low ≤ ((pass factor (lists.map .equalValues))^[n] s).value v ∧
        ((pass factor (lists.map .equalValues))^[n] s).value v ≤ s.value high := by
  obtain ⟨least, lowest, most, highest, -, between⟩ :=
    exists_spread (List.ne_nil_of_mem (List.mem_map_of_mem (f := s.value) member))
  obtain ⟨low, first, rfl⟩ := List.mem_map.mp lowest
  obtain ⟨high, last, rfl⟩ := List.mem_map.mp highest
  exact ⟨low, first, high, last,
    value_iterate_equalValues lists (convex_Icc _ _) fraction (List.forall_mem_map.mp between) n v member⟩

end Many

section Single

private theorem error_pass_equalValues_le (fraction : factor ∈ Set.Icc 0 1) :
    error (pass factor [.equalValues vs] s) (.equalValues vs) ≤ error s (.equalValues vs) := by
  apply spread_le_of_forall
  rw [List.forall_mem_map]
  intro v member
  have listed : v ∈ [vs].flatten := by simpa using member
  obtain ⟨low, first, high, last, above, below⟩ := value_between_equalValues (s := s) [vs] fraction 1 listed
  rw [List.flatten_singleton] at first last
  exact ⟨_, List.mem_map_of_mem first, _, List.mem_map_of_mem last, above, below⟩

/-- However often a free value is listed or linked to others that are, it goes the same part of the way. -/
private theorem value_pass_equalValues {v : Variable} (member : v ∈ vs) (live : s.Live v)
    (free : s.isConstant v = false) :
    (pass factor [.equalValues vs] s).value v = (1 - factor) * s.value v + factor * mean (vs.map s.value) := by
  have own : Delta.toward s v (mean (vs.map s.value)) ∈ deltas s (.equalValues vs) := List.mem_map_of_mem member
  have agree : ∀ relation ∈ [Relation.equalValues vs], ∀ delta ∈ deltas s relation,
      s.isLinked delta.target v = true → delta.amount = mean (vs.map s.value) - s.value v := by
    intro relation related delta own linked
    obtain rfl := List.mem_singleton.mp related
    exact eq_sub_of_add_eq' (Store.value_of_isLinked linked ▸ value_add_equalValues own)
  calc (pass factor [.equalValues vs] s).value v = s.value v + factor * (mean (vs.map s.value) - s.value v) :=
        value_pass_of_agree (List.mem_singleton_self _) own live free agree factor
    _ = _ := by ring

private theorem error_pass_equalValues (below : factor ≤ 1) (live : ∀ v ∈ vs, s.Live v)
    (free : ∀ v ∈ vs, s.isConstant v = false) :
    error (pass factor [.equalValues vs] s) (.equalValues vs) = (1 - factor) * error s (.equalValues vs) := by
  rw [error, error, ← spread_map (sub_nonneg.mpr below) (factor * mean (vs.map s.value)), List.map_map]
  congr 1
  exact List.map_congr_left fun v member => value_pass_equalValues member (live v member) (free v member)

end Single

/-- Relations of equal values keep every value between the least and the greatest that their variables had at
the start. The error of a single one never grows, and each pass leaves the same part of it if its variables
are free. -/
theorem equalValues_never_overshoot (positive : 0 < factor) (below : factor < 1) (s : Store ℝ) :
    (∀ lists : List (List Variable),
      let relations := lists.map Relation.equalValues
      let state := fun n => (pass factor relations)^[n] s
      ∀ n, relax factor relations (state n) = .ok (state (n + 1)) ∧
        ∀ v ∈ lists.flatten, ∃ low ∈ lists.flatten, ∃ high ∈ lists.flatten,
          s.value low ≤ (state n).value v ∧ (state n).value v ≤ s.value high) ∧
    ∀ vs : List Variable,
      let relation := Relation.equalValues vs
      let state := fun n => (pass factor [relation])^[n] s
      ∀ n, Constraint.error (state (n + 1)) relation ≤ Constraint.error (state n) relation ∧
        ((∀ v ∈ vs, s.Live v) → (∀ v ∈ vs, s.isConstant v = false) →
          Constraint.error (state (n + 1)) relation = (1 - factor) * Constraint.error (state n) relation) := by
  have fraction : factor ∈ Set.Icc 0 1 := ⟨positive.le, below.le⟩
  constructor
  · intro lists relations state n
    exact ⟨relax_iterate factor relations s n, fun v member => value_between_equalValues lists fraction n member⟩
  · intro vs relation state n
    have step : state (n + 1) = pass factor [relation] (state n) := Function.iterate_succ_apply' ..
    rw [step]
    refine ⟨error_pass_equalValues_le fraction, fun live free => ?_⟩
    have moved := moved_iterate_pass factor [relation] s n
    have flags := moved.names.isConstant_congr moved.constants
    exact error_pass_equalValues below.le (fun v member => moved.names.live (live v member))
      fun v member => flags ▸ free v member

section Knot

noncomputable def knotStore (free pinned : ℝ) : Store ℝ :=
  ⟨#[⟨0, false⟩, ⟨free, false⟩, ⟨pinned, true⟩], #[0, 1, 1, 2]⟩

private theorem value_knotStore :
    ∀ v ∈ [⟨0⟩, ⟨1⟩, ⟨2⟩, ⟨3⟩], 0 ≤ (knotStore 8 2).value v ∧ (knotStore 8 2).value v ≤ 8 := by
  have values : [⟨0⟩, ⟨1⟩, ⟨2⟩, ⟨3⟩].map (knotStore 8 2).value = [0, 8, 8, 2] := rfl
  rw [← List.forall_mem_map (P := fun x : ℝ => 0 ≤ x ∧ x ≤ 8), values]
  norm_num

/-- Two relations that share the second value leave all between 0 and 8; the first alone halves its error. -/
theorem equalValues_never_overshoot_knot :
    let s := knotStore 8 2
    let lists : List (List Variable) := [[⟨0⟩, ⟨1⟩, ⟨1⟩], [⟨2⟩, ⟨3⟩]]
    let vs : List Variable := [⟨0⟩, ⟨1⟩, ⟨2⟩]
    let relation := Relation.equalValues vs
    ((0 : ℝ) < 1 / 2 ∧ (1 / 2 : ℝ) < 1) ∧
      (∀ n, ∀ v ∈ lists.flatten, ((pass (1 / 2) (lists.map .equalValues))^[n] s).value v ∈ Set.Icc 0 8) ∧
      (∀ v ∈ vs, s.Live v ∧ s.isConstant v = false) ∧
      ∀ n, Constraint.error ((pass (1 / 2) [relation])^[n] s) relation = (1 / 2) ^ n * 8 := by
  intro s lists vs relation
  have positive : (0 : ℝ) < 1 / 2 := by norm_num
  have below : (1 / 2 : ℝ) < 1 := by norm_num
  obtain ⟨within, error⟩ := equalValues_never_overshoot positive below s
  have live : ∀ v ∈ vs, s.Live v := by decide
  have free : ∀ v ∈ ([⟨0⟩, ⟨1⟩, ⟨2⟩] : List Variable), s.isConstant v = false := by
    intro v member
    fin_cases member <;> rfl
  refine ⟨⟨positive, below⟩, ?_, fun v member => ⟨live v member, free v member⟩, ?_⟩
  · intro n v member
    have all : lists.flatten ⊆ [⟨0⟩, ⟨1⟩, ⟨2⟩, ⟨3⟩] := by decide
    obtain ⟨low, first, high, last, above, below⟩ := (within lists n).2 v member
    exact ⟨(value_knotStore low (all first)).1.trans above, below.trans (value_knotStore high (all last)).2⟩
  · intro n
    induction n with
    | zero =>
      have start : Constraint.error s relation = 8 - 0 := by
        change spread ([0, 8, 8] : List ℝ) = _
        apply spread_eq <;> norm_num
      rw [Function.iterate_zero_apply, start, pow_zero]
      norm_num
    | succ n ih =>
      rw [(error vs n).2 live free, ih]
      ring

end Knot

end Relation

end PlaneSketch
