import PlaneSketch.Relation
import PlaneSketch.Binary64
import PlaneSketch.Solver.Relax
import PlaneSketch.Proofs.Binary64.Sign

/-! The error of a relation over doubles is never below zero, so relations cannot make up for each
other in a total: a bound on the total is a bound on every one of them. -/
namespace PlaneSketch

namespace Scalar

variable {x : Float} {xs : List Float}

theorem not_neg_zero : ¬(0 : Float) < 0 := Binary64.not_lt_of_le (Binary64.le_refl rfl)

theorem not_neg_neg_zero : ¬(-0 : Float) < 0 := by decide +kernel

private theorem not_neg_sum (parts : ∀ x ∈ xs, ¬x < 0) : ¬sum xs < 0 :=
  Binary64.not_neg_foldl_add not_neg_neg_zero parts

private theorem le_of_sum_le (parts : ∀ x ∈ xs, ¬x < 0) {bound : Float} (total : sum xs ≤ bound) :
    ∀ x ∈ xs, x ≤ bound :=
  (Binary64.le_of_foldl_add_le not_neg_neg_zero parts total).2

private theorem le_max (number : x.isNaN = false) (y : Float) : x ≤ max x y := by
  rw [max]
  split
  case isTrue greater =>
    rcases greater with other | above
    · exact absurd (number.symm.trans other) Bool.false_ne_true
    · exact Binary64.le_of_lt above
  case isFalse => exact Binary64.le_refl number

private theorem min_le (number : x.isNaN = false) (y : Float) : min x y ≤ x := by
  rw [min]
  split
  case isTrue less =>
    rcases less with other | below
    · exact absurd (number.symm.trans other) Bool.false_ne_true
    · exact Binary64.le_of_lt below
  case isFalse => exact Binary64.le_refl number

private theorem le_foldl_max (number : x.isNaN = false) : x ≤ xs.foldl max x := by
  induction xs generalizing x with
  | nil => exact Binary64.le_refl number
  | cons y ys ih =>
    have first := le_max number y
    exact Binary64.le_trans first (ih (Binary64.isNaN_of_le first).2)

private theorem foldl_min_le (number : x.isNaN = false) : xs.foldl min x ≤ x := by
  induction xs generalizing x with
  | nil => exact Binary64.le_refl number
  | cons y ys ih =>
    have first := min_le number y
    exact Binary64.le_trans (ih (Binary64.isNaN_of_le first).1) first

private theorem not_neg_spread (xs : List Float) : ¬spread xs < 0 := by
  rw [spread]
  split
  case h_1 => exact not_neg_zero
  case h_2 x rest numbers =>
    have listed : x ∈ xs.filter fun x => !isNaN x := numbers ▸ List.mem_cons_self
    have number : x.isNaN = false := (Bool.not_eq_true' _).mp (List.mem_filter.mp listed).2
    exact Binary64.not_neg_sub (Binary64.le_trans (foldl_min_le number) (le_foldl_max number))

end Scalar

namespace Relation

theorem not_neg_error (s : Store Float) (relation : Relation) : ¬Constraint.error s relation < 0 := by
  change ¬relation.error s < 0
  cases relation with
  | midpoint point line => exact Binary64.not_neg_sqrt _
  | equalValues vs => exact Scalar.not_neg_spread _
  | colinearPoints points =>
    rw [error]
    split
    · exact Scalar.not_neg_zero
    · apply Scalar.not_neg_sum
      intro x member
      obtain ⟨p, _, rfl⟩ := List.mem_map.mp member
      exact Binary64.not_neg_sqrt _
  | pointOnCircle point circle => exact Binary64.not_neg_abs _
  | equalLength lines =>
    rw [error]
    split
    · exact Scalar.not_neg_zero
    · apply Scalar.not_neg_sum
      intro x member
      obtain ⟨length, _, rfl⟩ := List.mem_map.mp member
      exact Binary64.not_neg_abs _
  | tangentLine line circle => exact Binary64.not_neg_abs _

theorem error_le_of_totalError_le {s : Store Float} {relations : List Relation} {bound : Float}
    (total : totalError s relations ≤ bound) : ∀ r ∈ relations, Constraint.error s r ≤ bound := by
  intro r related
  apply Scalar.le_of_sum_le _ total _ (List.mem_map_of_mem related)
  intro x member
  obtain ⟨r, _, rfl⟩ := List.mem_map.mp member
  exact r.not_neg_error s

end Relation

end PlaneSketch
