import PlaneSketch.Proofs.Exact
import PlaneSketch.Geometry.Regression

/-! Exact numbers with an outcome for what has none. A quotient by zero is undefined, as is all that
is computed with it, and no comparison with it holds. Where a computation on numbers comes to a number
here, it has divided by nothing that is zero, or has seen to it that the quotient does not matter. -/
namespace PlaneSketch

inductive Outcome
  | number (x : ℝ)
  | undefined

namespace Outcome

def lift (f : ℝ → ℝ) : Outcome → Outcome
  | number x => number (f x)
  | undefined => undefined

def lift₂ (f : ℝ → ℝ → ℝ) : Outcome → Outcome → Outcome
  | number x, number y => number (f x y)
  | _, _ => undefined

open Classical in
noncomputable def liftQuotient (f : ℝ → ℝ → ℝ) : Outcome → Outcome → Outcome
  | number x, number y => if y = 0 then undefined else number (f x y)
  | _, _ => undefined

open Classical in
noncomputable def root : Outcome → Outcome
  | number x => if x < 0 then undefined else number (Real.sqrt x)
  | undefined => undefined

/-- Nothing compares with what is undefined, not even that itself. -/
def Compare (r : ℝ → ℝ → Prop) : Outcome → Outcome → Prop
  | number x, number y => r x y
  | _, _ => False

def isNumber : Outcome → Bool
  | number _ => true
  | undefined => false

open Classical in
noncomputable instance : Scalar Outcome where
  add := lift₂ (· + ·)
  sub := lift₂ (· - ·)
  mul := lift₂ (· * ·)
  div := liftQuotient (· / ·)
  neg := lift (- ·)
  lt := Compare (· < ·)
  le := Compare (· ≤ ·)
  beq a b := decide (Compare (· = ·) a b)
  ofNat n := number n
  pi := number Real.pi
  abs := lift abs
  sqrt := root
  sin := lift Real.sin
  cos := lift Real.cos
  atan2 := lift₂ Scalar.atan2
  truncMod := liftQuotient Scalar.truncMod
  isNaN x := !x.isNumber
  isFinite := isNumber
  decLt := inferInstance
  decLe := inferInstance

open Scalar

variable (x y : ℝ)

@[simp] theorem ofNat_number (n : Nat) : (ofNat n : Outcome) = number n := rfl

@[simp] theorem zero_number : (0 : Outcome) = number 0 := congrArg number Nat.cast_zero

@[simp] theorem one_number : (1 : Outcome) = number 1 := congrArg number Nat.cast_one

@[simp] theorem number_add : number x + number y = number (x + y) := rfl

@[simp] theorem number_sub : number x - number y = number (x - y) := rfl

@[simp] theorem number_mul : number x * number y = number (x * y) := rfl

@[simp] theorem number_neg : -number x = number (-x) := rfl

@[simp] theorem number_abs : abs (number x) = number |x| := rfl

@[simp] theorem number_lt : number x < number y ↔ x < y := Iff.rfl

@[simp] theorem isNaN_number : isNaN (number x) = false := rfl

@[simp] theorem isNaN_undefined : isNaN undefined = true := rfl

@[simp] theorem not_undefined_lt (a : Outcome) : ¬undefined < a := id

@[simp] theorem not_lt_undefined (a : Outcome) : ¬a < undefined := by
  cases a <;> exact id

@[simp] theorem number_beq : (number x == number y) = (x == y) := by
  rw [beq_real]
  rfl

theorem number_div_zero : number x / number 0 = undefined := if_pos rfl

variable {y} in
theorem number_div (divisor : y ≠ 0) : number x / number y = number (x / y) := if_neg divisor

theorem total_number (xs : List ℝ) : total (xs.map number) = number (total xs) := by
  rw [total, List.foldl_map, zero_number, total, numeral_zero]
  exact List.foldl_hom number fun _ _ => rfl

end Outcome

end PlaneSketch
