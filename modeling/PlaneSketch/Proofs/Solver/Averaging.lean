import PlaneSketch.Proofs.Relation.Correction
import PlaneSketch.Proofs.Solver.Numbers
import PlaneSketch.Proofs.Solver.Pass

/-! Where a pass takes a value, in exact numbers: part of the way to the mean of its goals, so that it stays
in every interval that it and they are in. -/
namespace PlaneSketch

open Related Constraint

namespace Relation

theorem mean_mem {K : Set ℝ} (convex : Convex ℝ K) {xs : List ℝ} (nonempty : xs ≠ []) (inside : ∀ x ∈ xs, x ∈ K) :
    mean xs ∈ K := by
  obtain ⟨low, first, high, last, -, between⟩ := Scalar.exists_spread nonempty
  have count : 0 < (xs.length : ℝ) := Nat.cast_pos.mpr (List.length_pos_iff.mpr nonempty)
  have middle : mean xs ∈ Set.Icc low high := by
    rw [mean, Scalar.sum_real, Scalar.ofNat_real]
    constructor
    · rw [le_div_iff₀' count, ← nsmul_eq_mul]
      exact List.card_nsmul_le_sum xs low fun x member => (between x member).1
    · rw [div_le_iff₀' count, ← nsmul_eq_mul]
      exact List.sum_le_card_nsmul xs high fun x member => (between x member).2
  exact convex.ordConnected.out (inside low first) (inside high last) middle

end Relation

namespace Store

variable {factor : ℝ} {amounts : List ℝ}

theorem stepOf_eq (factor : ℝ) (amounts : List ℝ) : stepOf factor amounts = factor * Relation.mean amounts := by
  simp [stepOf, Relation.mean, List.sum_eq_foldl, mul_div_assoc]

private theorem stepOf_of_forall {amount : ℝ} (some : amounts ≠ []) (same : ∀ a ∈ amounts, a = amount) :
    stepOf factor amounts = factor * amount := by
  rw [stepOf_eq, Relation.mean_eq_of_forall same some]

private theorem step_mem {K : Set ℝ} (convex : Convex ℝ K) (fraction : factor ∈ Set.Icc 0 1) {x : ℝ}
    (start : x ∈ K) (some : amounts ≠ []) (goals : ∀ amount ∈ amounts, x + amount ∈ K) :
    x + stepOf factor amounts ∈ K := by
  have shifted : Convex ℝ (Set.preimage (x + ·) K) := convex.translate_preimage_right x
  have stay : (0 : ℝ) ∈ Set.preimage (x + ·) K := by
    rw [Set.mem_preimage, add_zero]
    exact start
  rw [stepOf_eq]
  exact shifted.smul_mem_of_zero_mem stay (Relation.mean_mem shifted some goals) fraction

end Store

namespace Relation

variable {relations : List Relation}

private theorem mem_proposed_of_free {s : Store ℝ} {relation : Relation} (related : relation ∈ relations)
    {delta : Delta ℝ} (member : delta ∈ deltas s relation) (free : s.isConstant delta.target = false) :
    delta.amount ∈ proposed relations s (s.cellOf delta.target) := by
  have listed : delta ∈ relations.flatMap (deltas s) := List.mem_flatMap.mpr ⟨relation, related, member⟩
  have counts : (s.cellOf delta.target, delta.amount) ∈ s.corrections (relations.flatMap (deltas s)) :=
    List.mem_map.mpr ⟨delta, List.mem_filter.mpr ⟨listed, by simp [free]⟩, rfl⟩
  exact List.mem_map.mpr ⟨_, List.mem_filter.mpr ⟨counts, beq_self_eq_true _⟩, rfl⟩

theorem exists_of_mem_proposed {s : Store ℝ} {v : Variable} {amount : ℝ}
    (member : amount ∈ proposed relations s (s.cellOf v)) :
    ∃ relation ∈ relations, ∃ delta ∈ deltas s relation,
      s.isLinked delta.target v = true ∧ delta.amount = amount := by
  obtain ⟨delta, listed, linked, same, -⟩ := Store.mem_amountsFor member
  obtain ⟨relation, related, own⟩ := List.mem_flatMap.mp listed
  exact ⟨relation, related, delta, own, Store.isLinked_iff.mpr linked, same⟩

private theorem value_pass {s : Store ℝ} {v : Variable} (live : s.Live v) (factor : ℝ)
    (some : proposed relations s (s.cellOf v) ≠ []) :
    (pass factor relations s).value v =
      s.value v + Store.stepOf factor (proposed relations s (s.cellOf v)) :=
  Store.value_correct live factor _ rfl some

/-- Where all that is proposed for the cell of a free variable agrees, it takes this part of the way. -/
theorem value_pass_of_agree {s : Store ℝ} {relation : Relation} (related : relation ∈ relations) {delta : Delta ℝ}
    (member : delta ∈ deltas s relation) (live : s.Live delta.target) (free : s.isConstant delta.target = false)
    (agree : ∀ r ∈ relations, ∀ other ∈ deltas s r, s.isLinked other.target delta.target = true →
      other.amount = delta.amount) (factor : ℝ) :
    (pass factor relations s).value delta.target = s.value delta.target + factor * delta.amount := by
  have some := List.ne_nil_of_mem (mem_proposed_of_free related member free)
  rw [value_pass live factor some, Store.stepOf_of_forall some]
  intro amount counts
  obtain ⟨r, listed, other, own, linked, rfl⟩ := exists_of_mem_proposed counts
  exact agree r listed other own linked

theorem value_pass_mem {K : Set ℝ} (convex : Convex ℝ K) {factor : ℝ} (fraction : factor ∈ Set.Icc 0 1)
    {s : Store ℝ} {v : Variable} (start : s.value v ∈ K)
    (goals : ∀ relation ∈ relations, ∀ delta ∈ deltas s relation, s.isLinked delta.target v = true →
      s.value delta.target + delta.amount ∈ K) :
    (pass factor relations s).value v ∈ K := by
  have inside : ∀ amount ∈ proposed relations s (s.cellOf v), s.value v + amount ∈ K := by
    intro amount member
    obtain ⟨relation, related, delta, own, linked, rfl⟩ := exists_of_mem_proposed member
    exact Store.value_of_isLinked linked ▸ goals relation related delta own linked
  rw [Store.value_eq_valueAt] at start ⊢
  have names : Store.SameNames s (pass factor relations s) := s.sameNames_correct factor _
  rw [names.cellOf, valueAt_pass]
  rw [Store.value_eq_valueAt] at inside
  cases here : s.valueAt (s.cellOf v) with
  | none =>
    rw [here] at start
    exact start
  | some x =>
    rw [here] at start inside
    rw [Option.map_some, Option.getD_some]
    split
    case isTrue => exact start
    case isFalse some => exact Store.step_mem convex fraction start (by simpa using some) inside

section Alone

variable {factor : ℝ} {s : Store ℝ} {relation : Relation} (unlinked : s.Unlinked (owned relation))
include unlinked

theorem value_pass_of_unlinked (factor : ℝ) {delta : Delta ℝ} (member : delta ∈ deltas s relation)
    (free : s.isConstant delta.target = false) :
    (pass factor [relation] s).value delta.target = s.value delta.target + factor * delta.amount := by
  have own := unlinked_targets unlinked (List.ne_nil_of_mem member)
  have apart := own.apart
  rw [List.map_map] at apart
  have live := own.live delta.target (List.mem_map_of_mem member)
  refine value_pass_of_agree (List.mem_singleton_self relation) member live free ?_ factor
  intro r related other listed linked
  obtain rfl := List.mem_singleton.mp related
  rw [List.inj_on_of_nodup_map apart listed member (Store.isLinked_iff.mp linked)]

theorem exists_moved_iff (positive : 0 < factor) (proposes : deltas s relation ≠ []) :
    (∃ v ∈ owned relation, s.isConstant v = false ∧ (pass factor [relation] s).value v ≠ s.value v) ↔
      ∃ delta ∈ deltas s relation, s.isConstant delta.target = false ∧ delta.amount ≠ 0 := by
  have moves : ∀ delta ∈ deltas s relation, s.isConstant delta.target = false →
      ((pass factor [relation] s).value delta.target ≠ s.value delta.target ↔ delta.amount ≠ 0) := by
    intro delta member free
    rw [value_pass_of_unlinked unlinked factor member free, Ne, add_eq_left, mul_eq_zero, or_iff_right positive.ne']
  constructor
  · rintro ⟨v, own, free, moved⟩
    obtain ⟨delta, member, rfl⟩ := List.mem_map.mp ((perm_targets proposes).mem_iff.mp own)
    exact ⟨delta, member, free, (moves delta member free).mp moved⟩
  · rintro ⟨delta, member, free, asked⟩
    exact ⟨delta.target, target_mem_owned s relation member, free, (moves delta member free).mpr asked⟩

end Alone

end Relation

end PlaneSketch
