import PlaneSketch.Proofs.Binary64.Fraction
import PlaneSketch.Proofs.Solver.Ends

/-! What a solve makes of finite values. A cell that is proposed to change once in a pass moves part of the
way to a finite goal and stays finite. Only several proposals together can take it out of range, and then
no pass changes it any more. -/
namespace PlaneSketch

open Constraint

namespace Store

section Steps

open Binary64

variable {factor x : Float}

private theorem nearest_stepOf {amount : Float} (positive : 0 < factor) (below : factor < 1)
    (finite : amount.isFinite = true) :
    (stepOf factor [amount]).isFinite = true ∧
      Nearest (toRat factor * toRat amount) (toRat (stepOf factor [amount])) := by
  have zero : toRat 0 = 0 := rfl
  obtain ⟨nonNegative, fraction⟩ := toRat_fraction positive below
  have sum : RoundsTo (toRat amount) (0 + amount) := by
    have rounds := rounds_add (x := 0) (by decide +kernel) finite
    rwa [zero, zero_add] at rounds
  have sumFinite := sum.isFinite le_rfl le_rfl
  have total : toRat (0 + amount) = toRat amount := (sum.closest sumFinite).nearest.eq (representable_toRat _)
  have product : RoundsTo (toRat factor * toRat amount) (factor * (0 + amount)) :=
    total ▸ rounds_mul (isFinite_of_between positive below) sumFinite
  have part : toRat factor * toRat amount ∈ Set.uIcc (toRat 0) (toRat amount) := by
    rw [zero]
    exact mul_mem_uIcc nonNegative (fraction.trans largestFraction_le_one) _
  have productFinite := product.isFinite_of_mem_uIcc part
  have quotient : RoundsTo (toRat (factor * (0 + amount))) (stepOf factor [amount]) := rounds_div_one productFinite
  have finite := quotient.isFinite le_rfl le_rfl
  have same : toRat (stepOf factor [amount]) = toRat (factor * (0 + amount)) :=
    (quotient.closest finite).nearest.eq (representable_toRat _)
  rw [same]
  exact ⟨finite, (product.closest productFinite).nearest⟩

private theorem step_between {goal : Float} (positive : 0 < factor) (below : factor < 1)
    (start : x.isFinite = true) (way : (goal - x).isFinite = true) :
    let next := x + stepOf factor [goal - x]
    next.isFinite = true ∧ toRat next ∈ Set.uIcc (toRat x) (toRat goal) := by
  intro next
  have ends := (isFinite_of_sub way).1
  obtain ⟨nonNegative, fraction⟩ := toRat_fraction positive below
  obtain ⟨finite, nearest⟩ := nearest_stepOf positive below way
  have whole : ∃ k : ℤ, toRat goal - toRat x = k * leastUnit := by
    obtain ⟨k, there⟩ := exists_units (representable_toRat goal)
    obtain ⟨l, here⟩ := exists_units (representable_toRat x)
    refine ⟨k - l, ?_⟩
    rw [there, here]
    push_cast
    ring
  have moved : toRat (stepOf factor [goal - x]) ∈ Set.uIcc 0 (toRat goal - toRat x) :=
    ((rounds_sub ends start).closest way).fraction_mem whole nonNegative fraction nearest
  have between : toRat x + toRat (stepOf factor [goal - x]) ∈ Set.uIcc (toRat x) (toRat goal) := by
    rw [Set.mem_uIcc] at moved ⊢
    exact moved.imp (fun ⟨low, high⟩ => ⟨by linarith, by linarith⟩) fun ⟨low, high⟩ => ⟨by linarith, by linarith⟩
  have rounds : RoundsTo (toRat x + toRat (stepOf factor [goal - x])) next := rounds_add start finite
  have inside := rounds.isFinite_of_mem_uIcc between
  exact ⟨inside, (rounds.closest inside).nearest.mem_uIcc (representable_toRat x) (representable_toRat goal) between⟩

private theorem isNaN_stepOf {amounts : List Float} (positive : 0 < factor) (below : factor < 1)
    (finite : ∀ a ∈ amounts, a.isFinite = true) (some : amounts ≠ []) (few : amounts.length < 2 ^ 64) :
    (stepOf factor amounts).isNaN = false := by
  obtain ⟨count, whole⟩ := ofNat_pos (List.length_pos_iff.mpr some) few
  have total : (amounts.foldl (· + ·) 0).isNaN = false := isNaN_foldl_add finite (by decide +kernel)
  exact isNaN_div_of_pos (isNaN_mul_of_pos positive (isFinite_of_between positive below) total) count whole

end Steps

section Amounts

variable {α : Type} [Scalar α]

theorem mem_amountsFor {s : Store α} {deltas : List (Delta α)} {i : Nat} {amount : α}
    (member : amount ∈ amountsFor i (s.corrections deltas)) :
    ∃ delta ∈ deltas, s.cellOf delta.target = i ∧ delta.amount = amount ∧ Scalar.isFinite amount = true := by
  obtain ⟨entry, kept, rfl⟩ := List.mem_map.mp member
  obtain ⟨listed, here⟩ := List.mem_filter.mp kept
  obtain ⟨delta, counts, rfl⟩ := List.mem_map.mp listed
  obtain ⟨proposed, counts⟩ := List.mem_filter.mp counts
  rw [Bool.and_eq_true] at counts
  exact ⟨delta, proposed, beq_iff_eq.mp here, rfl, counts.1⟩

private theorem length_amountsFor_le (s : Store α) (deltas : List (Delta α)) (i : Nat) :
    (amountsFor i (s.corrections deltas)).length ≤ deltas.length := by
  rw [amountsFor, List.length_map]
  refine (List.length_filter_le ..).trans ?_
  rw [corrections, List.length_map]
  exact List.length_filter_le ..

end Amounts

end Store

namespace Delta

variable {α : Type} [Scalar α]

/-- The change is the way from the value of its variable to some goal. -/
def Aimed (s : Store α) (delta : Delta α) : Prop := ∃ goal, delta.amount = goal - s.value delta.target

theorem aimed_toward (s : Store α) (v : Variable) (goal : α) : Aimed s (toward s v goal) := ⟨goal, rfl⟩

private theorem aimed_towardPoint (s : Store α) (p : Point Variable) (goal : Point α) :
    ∀ delta ∈ towardPoint s p goal, Aimed s delta :=
  List.forall_mem_cons.mpr ⟨aimed_toward .., List.forall_mem_singleton.mpr (aimed_toward ..)⟩

end Delta

namespace Relation

variable {α : Type} [Scalar α]

private theorem aimed_deltas (s : Store α) (relation : Relation) :
    ∀ delta ∈ deltas s relation, delta.Aimed s := by
  have point : ∀ p goal, ∀ delta ∈ Delta.towardPoint s p goal, delta.Aimed s := Delta.aimed_towardPoint s
  cases relation with
  | midpoint p line =>
    exact List.forall_mem_append.mpr ⟨List.forall_mem_append.mpr ⟨point _ _, point _ _⟩, point _ _⟩
  | equalValues vs => exact List.forall_mem_map.mpr fun v _ => Delta.aimed_toward ..
  | colinearPoints points =>
    rw [deltas]
    split
    · exact List.forall_mem_nil _
    · exact List.forall_mem_flatMap.mpr fun p _ => point _ _
  | pointOnCircle p circle =>
    exact List.forall_mem_append.mpr ⟨List.forall_mem_append.mpr ⟨point _ _, point _ _⟩,
      List.forall_mem_singleton.mpr (Delta.aimed_toward ..)⟩
  | equalLength lines =>
    exact List.forall_mem_flatMap.mpr fun line _ => List.forall_mem_append.mpr ⟨point _ _, point _ _⟩
  | tangentLine line circle =>
    exact List.forall_mem_append.mpr ⟨List.forall_mem_append.mpr
      ⟨List.forall_mem_cons.mpr ⟨Delta.aimed_toward .., point _ _⟩, point _ _⟩, point _ _⟩

private theorem length_deltas_le (s : Store α) (relation : Relation) :
    (deltas s relation).length ≤ (owned relation).length := by
  rw [← List.length_map Delta.target]
  change (targets s relation).length ≤ _
  cases relation with
  | equalValues vs =>
    rw [targets_equalValues]
    exact le_rfl
  | colinearPoints points =>
    rw [targets_colinearPoints]
    split
    · exact Nat.zero_le _
    · exact le_rfl
  | equalLength lines =>
    rw [targets_equalLength]
    exact le_rfl
  | midpoint | pointOnCircle | tangentLine => exact le_rfl

private theorem length_flatMap_deltas_le (s : Store α) (relations : List Relation) :
    (relations.flatMap (deltas s)).length ≤ (relations.flatMap owned).length := by
  induction relations with
  | nil => exact le_rfl
  | cons r relations ih =>
    rw [List.flatMap_cons, List.flatMap_cons, List.length_append, List.length_append]
    exact Nat.add_le_add (length_deltas_le s r) ih

/-- What the relations propose to add to the value of a cell, as far as it counts. -/
def proposed (relations : List Relation) (s : Store α) (i : Nat) : List α :=
  Store.amountsFor i (s.corrections (relations.flatMap (deltas s)))

private theorem length_proposed_le (relations : List Relation) (s : Store α) (i : Nat) :
    (proposed relations s i).length ≤ (relations.flatMap owned).length :=
  (Store.length_amountsFor_le ..).trans (length_flatMap_deltas_le s relations)

theorem mem_proposed {relations : List Relation} {s : Store α} {i : Nat} {amount x : α}
    (member : amount ∈ proposed relations s i) (here : s.valueAt i = some x) :
    Scalar.isFinite amount = true ∧ ∃ goal, amount = goal - x := by
  obtain ⟨delta, listed, cell, rfl, finite⟩ := Store.mem_amountsFor member
  obtain ⟨relation, -, own⟩ := List.mem_flatMap.mp listed
  obtain ⟨goal, amount⟩ := aimed_deltas s relation delta own
  have value : s.value delta.target = x := by
    rw [Store.value_eq_valueAt, cell, here]
    rfl
  exact ⟨finite, goal, value ▸ amount⟩

theorem valueAt_pass (factor : α) (relations : List Relation) (s : Store α) (i : Nat) :
    (pass factor relations s).valueAt i = (s.valueAt i).map fun x =>
      if (proposed relations s i).isEmpty then x else x + Store.stepOf factor (proposed relations s i) :=
  s.valueAt_correct ..

section Passes

variable {factor x : Float} {relations : List Relation} {s : Store Float} {i : Nat}

private theorem proposed_eq_nil (here : s.valueAt i = some x) (lost : x.isFinite = false) :
    proposed relations s i = [] := by
  rw [List.eq_nil_iff_forall_not_mem]
  intro amount member
  obtain ⟨finite, goal, rfl⟩ := mem_proposed member here
  exact Bool.false_ne_true (lost.symm.trans (Binary64.isFinite_of_sub finite).2)

/-- A pass keeps a value, or it adds a step to a finite one. The step for a single proposal ends at a finite
value again, and one for several at a number. -/
private theorem pass_cases (positive : 0 < factor) (below : factor < 1) {y : Float}
    (there : y ∈ (pass factor relations s).valueAt i) :
    ∃ x ∈ s.valueAt i, y = x ∨ x.isFinite = true ∧ y = x + Store.stepOf factor (proposed relations s i) ∧
      (y.isFinite = true ∨ 2 ≤ (proposed relations s i).length) ∧
      ((relations.flatMap owned).length < 2 ^ 64 → y.isNaN = false) := by
  rw [valueAt_pass, Option.mem_def, Option.map_eq_some_iff] at there
  obtain ⟨x, here, rfl⟩ := there
  refine ⟨x, here, ?_⟩
  have amounts : ∀ amount ∈ proposed relations s i, amount.isFinite = true ∧ ∃ goal, amount = goal - x :=
    fun _ member => mem_proposed member here
  have count := length_proposed_le relations s i
  have lost : x.isFinite = false → proposed relations s i = [] := proposed_eq_nil here
  generalize proposed relations s i = proposals at amounts count lost
  split
  case isTrue => exact .inl rfl
  case isFalse some =>
    rw [List.isEmpty_iff] at some
    have finite : x.isFinite = true := by
      by_contra other
      exact some (lost (Bool.not_eq_true _ ▸ other))
    refine .inr ⟨finite, rfl, ?_, fun few => ?_⟩
    · match proposals with
      | [] => exact absurd rfl some
      | [amount] =>
        obtain ⟨way, goal, rfl⟩ := amounts amount List.mem_cons_self
        exact .inl (Store.step_between positive below finite way).1
      | _ :: _ :: _ => exact .inr (Nat.le_add_left 2 _)
    · exact Binary64.isNaN_add_of_isFinite (Binary64.isNaN_of_isFinite finite)
        (Store.isNaN_stepOf positive below (fun a member => (amounts a member).1) some (count.trans_lt few))
        (.inl finite)

private theorem iterate_pass_cases (positive : 0 < factor) (below : factor < 1)
    (finite : ∀ i, ∀ x ∈ s.valueAt i, x.isFinite = true) (n : Nat) :
    let state := fun n => (pass factor relations)^[n] s
    ∀ x ∈ (state n).valueAt i,
      (x.isFinite = true ∨ x.isFinite = false ∧ ∃ k < n, ∃ y ∈ (state k).valueAt i, y.isFinite = true ∧
        2 ≤ (proposed relations (state k) i).length ∧
        x = y + Store.stepOf factor (proposed relations (state k) i)) ∧
      ((relations.flatMap owned).length < 2 ^ 64 → x.isNaN = false) := by
  intro state
  induction n with
  | zero =>
    intro x here
    have whole := finite i x here
    exact ⟨.inl whole, fun _ => Binary64.isNaN_of_isFinite whole⟩
  | succ n ih =>
    intro y there
    have step : state (n + 1) = pass factor relations (state n) := Function.iterate_succ_apply' ..
    obtain ⟨x, here, same | ⟨whole, sum, alone, number⟩⟩ := pass_cases positive below (step ▸ there)
    · obtain ⟨parts, number⟩ := ih x here
      rw [same]
      exact ⟨parts.imp_right fun ⟨lost, k, early, before⟩ => ⟨lost, k, Nat.lt_succ_of_lt early, before⟩, number⟩
    · refine ⟨?_, number⟩
      cases result : y.isFinite with
      | true => exact .inl rfl
      | false =>
        have several := alone.resolve_left (result ▸ Bool.false_ne_true)
        exact .inr ⟨rfl, n, Nat.lt_succ_self n, x, here, whole, several, sum⟩

end Passes

end Relation

/-- Where a solve starts from finite values, every value it leaves is finite, unless in one of its passes
several proposals for the cell, each of them finite, made a step that ended out of range. No value is left
that is not a number, as long as the relations have no more variables than a machine word counts. -/
theorem solve_numbers {config : Config Float} (valid : config.validate = .ok ()) (relations : List Relation)
    (figureCount : Nat) (held : List (Figure Variable)) (damped : Bool) {s : Store Float}
    (finite : ∀ cell ∈ s.cells, cell.value.isFinite = true) :
    let solve := solveHolding config relations figureCount held damped s
    let factor := config.stepFactor damped
    let state := fun n => (Relation.pass factor relations)^[n] (s.hold (s.guardFor (held.flatMap Figure.toList)))
    ∀ i, ∀ x ∈ solve.store.valueAt i,
      (x.isFinite = true ∨ x.isFinite = false ∧
        ∃ n < solve.result.iterations, ∃ y ∈ (state n).valueAt i, y.isFinite = true ∧
          2 ≤ (Relation.proposed relations (state n) i).length ∧
          (∀ amount ∈ Relation.proposed relations (state n) i, amount.isFinite = true) ∧
          x = y + Store.stepOf factor (Relation.proposed relations (state n) i)) ∧
      ((relations.flatMap Related.owned).length < 2 ^ 64 → x.isNaN = false) := by
  intro solve factor state i x left
  obtain ⟨positive, below⟩ := Config.stepFactor_of_validate valid damped
  obtain ⟨-, store, -⟩ := solve_passes config relations figureCount held damped s
  have whole : ∀ i, ∀ x ∈ (s.hold (s.guardFor (held.flatMap Figure.toList))).valueAt i, x.isFinite = true := by
    intro i x here
    rw [Store.valueAt_hold, Option.mem_def, Store.valueAt, Option.map_eq_some_iff] at here
    obtain ⟨cell, found, rfl⟩ := here
    exact finite cell (Array.mem_of_getElem? found)
  rw [show solve.store = _ from store, Store.valueAt_release] at left
  obtain ⟨parts, number⟩ := Relation.iterate_pass_cases positive below whole solve.result.iterations x left
  refine ⟨parts.imp_right ?_, number⟩
  rintro ⟨lost, n, early, y, here, start, several, sum⟩
  exact ⟨lost, n, early, y, here, start, several, fun _ member => (Relation.mem_proposed member here).1, sum⟩

section Runs

theorem solve_distant_numbers :
    let s := freeStore [-1.7e308, 1.7e308]
    let solve := solveHolding hurried [Relation.equalValues [⟨0⟩, ⟨1⟩]] 0 [] false s
    hurried.validate = .ok () ∧ (∀ cell ∈ s.cells, cell.value.isFinite = true) ∧
      ∀ i < 2, ∀ x ∈ solve.store.valueAt i, x.isFinite = true ∧ x.isNaN = false := by
  intro s solve
  have valid : hurried.validate = .ok () := Config.validate_eq_ok.mpr (by decide +kernel)
  have finite : ∀ cell ∈ s.cells, cell.value.isFinite = true := by decide +kernel
  refine ⟨valid, finite, fun i first x left => ?_⟩
  obtain ⟨whole | ⟨-, n, early, y, -, -, several, -⟩, number⟩ :=
    solve_numbers valid [Relation.equalValues [⟨0⟩, ⟨1⟩]] 0 [] false finite i x left
  · exact ⟨whole, number (by decide)⟩
  · have passes : solve.result.iterations = 1 := by decide +kernel
    obtain rfl : n = 0 := Nat.lt_one_iff.mp (passes ▸ early)
    have alone : ∀ i < 2, (Relation.proposed [Relation.equalValues [⟨0⟩, ⟨1⟩]] (s.hold (s.guardFor [])) i).length = 1 := by
      decide +kernel
    exact absurd (alone i first ▸ several) (by decide)

/-- Said twice, the same relation takes both values out of range: the sum of two finite proposals is
infinite, and so is their mean. -/
theorem solve_doubled_relation :
    let s := freeStore [-1.7e308, 1.7e308]
    let relation := Relation.equalValues [⟨0⟩, ⟨1⟩]
    let solve := solveHolding hurried [relation, relation] 0 [] false s
    hurried.validate = .ok () ∧ (∀ cell ∈ s.cells, cell.value.isFinite = true) ∧
      (∀ amount ∈ (deltas s relation).map Delta.amount, amount.isFinite = true) ∧
      solve.store.valueAt 0 = some (1 / 0) ∧ solve.store.valueAt 1 = some (-1 / 0) := by
  have valid : hurried.validate = .ok () := Config.validate_eq_ok.mpr (by decide +kernel)
  refine ⟨valid, ?_⟩
  decide +kernel

end Runs

end PlaneSketch
