import Mathlib
import PlaneSketch.Scalar

/-! Exact numbers as scalars. Every operation is the one that doubles round: nothing is infinite or
not a number, and a quotient by zero is zero. -/
namespace PlaneSketch

open Classical in
noncomputable instance : Scalar ℝ where
  ofNat n := n
  pi := Real.pi
  abs x := |x|
  sqrt := Real.sqrt
  sin := Real.sin
  cos := Real.cos
  atan2 y x := Complex.arg ⟨x, y⟩
  truncMod x y := x - y * (if x / y < 0 then ⌈x / y⌉ else ⌊x / y⌋)
  isNaN _ := false
  isFinite _ := true
  beq x y := decide (x = y)
  decLt := inferInstance
  decLe := inferInstance

namespace Scalar

@[simp] theorem numeral_zero : @OfNat.ofNat ℝ 0 (numeral 0) = 0 := Nat.cast_zero

@[simp] theorem numeral_one : @OfNat.ofNat ℝ 1 (numeral 1) = 1 := Nat.cast_one

@[simp] theorem numeral_ofNat (n : Nat) [n.AtLeastTwo] :
    @OfNat.ofNat ℝ n (numeral n) = OfNat.ofNat n := rfl

@[simp] theorem ofNat_real (n : Nat) : (ofNat n : ℝ) = n := rfl

@[simp] theorem abs_real (x : ℝ) : abs x = |x| := rfl

@[simp] theorem sqrt_real (x : ℝ) : sqrt x = Real.sqrt x := rfl

@[simp] theorem isFinite_real (x : ℝ) : isFinite x = true := rfl

@[simp] theorem isNaN_real (x : ℝ) : isNaN x = false := rfl

@[simp] theorem beq_real (x y : ℝ) : (x == y) = decide (x = y) := by
  change @decide (x = y) _ = _
  congr

@[simp] theorem max_real (x y : ℝ) : max x y = Max.max x y := by
  simp only [max, isNaN_real, Bool.false_eq_true, false_or]
  rw [max_def_lt]

@[simp] theorem min_real (x y : ℝ) : min x y = Min.min x y := by
  simp only [min, isNaN_real, Bool.false_eq_true, false_or]
  rw [min_comm, min_def_lt]

@[simp] theorem sum_real (xs : List ℝ) : sum xs = xs.sum := by
  simp [sum, List.sum_eq_foldl]

theorem sum_eq_zero_iff {xs : List ℝ} (parts : ∀ x ∈ xs, 0 ≤ x) : sum xs = 0 ↔ ∀ x ∈ xs, x = 0 := by
  rw [sum_real]
  constructor
  · intro zero x member
    exact List.all_zero_of_le_zero_le_of_sum_eq_zero parts zero member
  · exact List.sum_eq_zero

end Scalar

end PlaneSketch
