import PlaneSketch.Binary64
import Mathlib.Algebra.Order.Field.Power
import Mathlib.Data.Rat.Cast.Order
import Mathlib.Tactic.FieldSimp
import Mathlib.Tactic.Linarith
import Mathlib.Tactic.Positivity
import Mathlib.Tactic.Ring

/-! Rounding to doubles. A number in the interval around a magnitude, which ends halfway to its
neighbours, has that magnitude as the nearest one. -/
namespace PlaneSketch

theorem zpow_eq_div {base : ℚ} (positive : 0 < base) (k : Int) :
    base ^ k = base ^ k.toNat / base ^ (-k).toNat := by
  rw [← zpow_natCast, ← zpow_natCast, ← zpow_sub₀ (ne_of_gt positive)]
  congr 1
  omega

@[simp] theorem cast_twoTo (n : Nat) : ((twoTo n : Nat) : ℚ) = 2 ^ n := Nat.cast_pow 2 n

@[simp] theorem cast_tenTo (n : Nat) : ((tenTo n : Nat) : ℚ) = 10 ^ n := Nat.cast_pow 10 n

theorem twoTo_pos (n : Nat) : 0 < twoTo n := Nat.pow_pos (by decide)

theorem tenTo_pos (n : Nat) : 0 < tenTo n := Nat.pow_pos (by decide)

namespace Binary64

section Rounding

variable {num den : Nat}

private theorem roundHalfEven_eq {n : Nat} (low : 2 * (n * den) ≤ 2 * num + den)
    (high : 2 * num ≤ 2 * (n * den) + den)
    (strict : n % 2 = 1 → 2 * (n * den) < 2 * num + den ∧ 2 * num < 2 * (n * den) + den)
    (positive : 0 < den) : roundHalfEven num den = n := by
  have parts : num / den * den + num % den = num := Nat.div_add_mod' num den
  have small : num % den < den := Nat.mod_lt num positive
  have near : n = num / den ∨ n = num / den + 1 := by
    have most : n < num / den + 2 := by
      by_contra larger
      have := Nat.mul_le_mul_right den (Nat.le_of_not_lt larger)
      rw [Nat.add_mul] at this
      omega
    have least : num / den < n + 1 := by
      by_contra smaller
      have := Nat.mul_le_mul_right den (Nat.le_of_not_lt smaller)
      rw [Nat.add_mul] at this
      omega
    omega
  rw [roundHalfEven]
  rcases near with same | same
  · rw [same] at low high strict ⊢
    rw [if_pos (by omega)]
  · rw [same] at low high strict ⊢
    rw [Nat.add_mul] at low high strict
    rw [if_neg (by omega)]

theorem floorLog2_spec (num_pos : 0 < num) (den_pos : 0 < den) :
    (2 : ℚ) ^ floorLog2 num den ≤ num / den ∧ (num : ℚ) / den < 2 ^ (floorLog2 num den + 1) := by
  let k : Int := (num.log2 : Int) - den.log2
  have den_cast : (0 : ℚ) < den := Nat.cast_pos.mpr den_pos
  have num_low : (2 : ℚ) ^ num.log2 ≤ num := by exact_mod_cast Nat.log2_self_le (Nat.ne_of_gt num_pos)
  have num_high : (num : ℚ) < 2 ^ (num.log2 + 1) := by exact_mod_cast Nat.lt_log2_self
  have den_low : (2 : ℚ) ^ den.log2 ≤ den := by exact_mod_cast Nat.log2_self_le (Nat.ne_of_gt den_pos)
  have den_high : (den : ℚ) < 2 ^ (den.log2 + 1) := by exact_mod_cast Nat.lt_log2_self
  have above : (num : ℚ) / den < 2 ^ (k + 1) := by
    rw [div_lt_iff₀ den_cast]
    calc (num : ℚ) < 2 ^ (num.log2 + 1) := num_high
      _ = 2 ^ (k + 1) * 2 ^ den.log2 := by
        rw [← zpow_natCast, ← zpow_natCast, ← zpow_add₀ (by norm_num)]
        congr 1
        push_cast
        omega
      _ ≤ 2 ^ (k + 1) * den := by gcongr
  have below : (2 : ℚ) ^ (k - 1) ≤ num / den := by
    rw [le_div_iff₀ den_cast]
    calc (2 : ℚ) ^ (k - 1) * den ≤ 2 ^ (k - 1) * 2 ^ (den.log2 + 1) := by gcongr
      _ = 2 ^ num.log2 := by
        rw [← zpow_natCast, ← zpow_natCast, ← zpow_add₀ (by norm_num)]
        congr 1
        push_cast
        omega
      _ ≤ num := num_low
  have test : den * twoTo k.toNat ≤ num * twoTo (-k).toNat ↔ (2 : ℚ) ^ k ≤ num / den := by
    rw [zpow_eq_div (by norm_num), div_le_div_iff₀ (by positivity) den_cast, ← Nat.cast_le (α := ℚ)]
    push_cast
    rw [cast_twoTo, cast_twoTo, mul_comm]
  change (2 : ℚ) ^ (if den * twoTo k.toNat ≤ num * twoTo (-k).toNat then k else k - 1) ≤ _ ∧
    _ < (2 : ℚ) ^ ((if den * twoTo k.toNat ≤ num * twoTo (-k).toNat then k else k - 1) + 1)
  split
  case isTrue reached => exact ⟨test.mp reached, above⟩
  case isFalse missed =>
    rw [test, not_le] at missed
    rw [Int.sub_add_cancel]
    exact ⟨below, missed⟩

end Rounding

section Parts

theorem twoTo_52 : twoTo 52 = 4503599627370496 := rfl

theorem twoTo_53 : twoTo 53 = 9007199254740992 := rfl

variable (b : Nat)

theorem exponent_mantissa : (exponent b + 1074).toNat * twoTo 52 + mantissa b = b := by
  rw [exponent, mantissa, twoTo_52]
  omega

theorem mantissa_lt : mantissa b < twoTo 53 := by
  rw [mantissa, twoTo_52, twoTo_53]
  omega

theorem le_exponent : -1074 ≤ exponent b := by
  rw [exponent]
  omega

variable {b}

theorem mantissa_pos (positive : 0 < b) : 0 < mantissa b := by
  rw [mantissa, twoTo_52]
  omega

private theorem le_mantissa (normal : -1074 < exponent b) : twoTo 52 ≤ mantissa b ∧ twoTo 53 ≤ b := by
  rw [exponent, twoTo_52] at normal
  rw [mantissa, twoTo_52, twoTo_53]
  omega

private theorem carry (power : mantissa b = twoTo 52) (normal : twoTo 53 ≤ b) :
    (exponent b - 1 + 1074).toNat * twoTo 52 + twoTo 53 = b := by
  have total := exponent_mantissa b
  rw [power, twoTo_52] at total
  rw [twoTo_53] at normal
  have later : (exponent b + 1074).toNat ≠ 0 := by
    intro zero
    rw [zero] at total
    omega
  have next : (exponent b + 1074).toNat = (exponent b - 1 + 1074).toNat + 1 := by omega
  rw [next, Nat.add_mul] at total
  rw [twoTo_52, twoTo_53]
  linarith

end Parts

/-- How far below a magnitude, in units of its last bit, the numbers start that round to it. The
lower neighbour of a power of two is nearer than the upper one. -/
def gap (b : Nat) : ℚ := if mantissa b = twoTo 52 ∧ twoTo 53 ≤ b then 1 / 4 else 1 / 2

/-- The interval around a magnitude, with its ends if the mantissa is even. -/
structure Rounds (b : Nat) (x : ℚ) : Prop where
  low : (mantissa b - gap b) * 2 ^ exponent b ≤ x
  high : x ≤ (mantissa b + 1 / 2) * 2 ^ exponent b
  strict : mantissa b % 2 = 1 →
    (mantissa b - gap b) * 2 ^ exponent b < x ∧ x < (mantissa b + 1 / 2) * 2 ^ exponent b

theorem gap_le (b : Nat) : gap b ≤ 1 / 2 := by
  rw [gap]
  split <;> norm_num

section Range

variable {b : Nat} {x : ℚ}

theorem Rounds.least_le (rounds : Rounds b x) (positive : 0 < b) : (2 : ℚ) ^ (-1075 : Int) ≤ x := by
  have one : (1 : ℚ) ≤ mantissa b := by exact_mod_cast mantissa_pos positive
  calc (2 : ℚ) ^ (-1075 : Int) = 1 / 2 * 2 ^ (-1074 : Int) := by
        rw [show (-1075 : Int) = -1 + -1074 by norm_num, zpow_add₀ (by norm_num)]
        norm_num
    _ ≤ 1 / 2 * 2 ^ exponent b := by
        gcongr
        · norm_num
        · exact le_exponent b
    _ ≤ (mantissa b - gap b) * 2 ^ exponent b := by
        gcongr
        linarith [gap_le b]
    _ ≤ x := rounds.low

theorem Rounds.lt_most (rounds : Rounds b x) (finite : b < infinity) : x < (2 : ℚ) ^ (1024 : Int) := by
  have size : (mantissa b : ℚ) + 1 ≤ 2 ^ 53 := by exact_mod_cast mantissa_lt b
  have last : exponent b ≤ 971 := by
    rw [infinity, twoTo_52] at finite
    rw [exponent, twoTo_52]
    omega
  calc x ≤ (mantissa b + 1 / 2) * 2 ^ exponent b := rounds.high
    _ < 2 ^ 53 * 2 ^ exponent b := by
        gcongr
        linarith
    _ ≤ 2 ^ 53 * 2 ^ (971 : Int) := by
        gcongr
        norm_num
    _ = 2 ^ (1024 : Int) := by
        rw [← zpow_natCast, ← zpow_add₀ (by norm_num)]
        rfl

end Range

section Nearest

variable {num den b : Nat}

theorem units_eq (q : Int) :
    ((num * twoTo (-q).toNat : Nat) : ℚ) / (den * twoTo q.toNat : Nat) = num / den / 2 ^ q := by
  rw [zpow_eq_div (by norm_num) q]
  push_cast
  rw [cast_twoTo, cast_twoTo, div_div_div_eq]

private theorem roundHalfEven_of_near {n : Nat} (positive : 0 < den)
    (low : (n : ℚ) - 1 / 2 ≤ num / den) (high : (num : ℚ) / den ≤ n + 1 / 2)
    (strict : n % 2 = 1 → (n : ℚ) - 1 / 2 < num / den ∧ (num : ℚ) / den < n + 1 / 2) :
    roundHalfEven num den = n := by
  have cast : (0 : ℚ) < den := Nat.cast_pos.mpr positive
  rw [le_div_iff₀ cast] at low
  rw [div_le_iff₀ cast] at high
  rw [lt_div_iff₀ cast, div_lt_iff₀ cast] at strict
  apply roundHalfEven_eq _ _ _ positive
  · rw [← Nat.cast_le (α := ℚ)]
    push_cast
    linarith
  · rw [← Nat.cast_le (α := ℚ)]
    push_cast
    linarith
  · intro odd
    obtain ⟨left, right⟩ := strict odd
    rw [← Nat.cast_lt (α := ℚ), ← Nat.cast_lt (α := ℚ)]
    push_cast
    constructor <;> linarith

private theorem zpow_add_unit (b : Nat) (k : Nat) : (2 : ℚ) ^ (exponent b + k) = 2 ^ k * 2 ^ exponent b := by
  rw [zpow_add₀ (by norm_num), zpow_natCast, mul_comm]

/-- The exponent at which a number is rounded is that of the magnitude, or one less if the number
lies just below a power of two. -/
private theorem exponent_cases (num_pos : 0 < num) (den_pos : 0 < den) (rounds : Rounds b (num / den)) :
    max (floorLog2 num den - 52) (-1074) = exponent b ∨
      (max (floorLog2 num den - 52) (-1074) = exponent b - 1 ∧ mantissa b = twoTo 52 ∧
        twoTo 53 ≤ b ∧ (num : ℚ) / den < 2 ^ 52 * 2 ^ exponent b) := by
  obtain ⟨below, above⟩ := floorLog2_spec num_pos den_pos
  have unit : (0 : ℚ) < 2 ^ exponent b := by positivity
  have least := le_exponent b
  have top : floorLog2 num den < exponent b + 53 := by
    have size : (mantissa b : ℚ) + 1 ≤ 2 ^ 53 := by exact_mod_cast mantissa_lt b
    rw [← zpow_lt_zpow_iff_right₀ (show (1 : ℚ) < 2 by norm_num)]
    calc (2 : ℚ) ^ floorLog2 num den ≤ num / den := below
      _ ≤ (mantissa b + 1 / 2) * 2 ^ exponent b := rounds.high
      _ < 2 ^ 53 * 2 ^ exponent b := by
        gcongr
        linarith
      _ = 2 ^ (exponent b + 53) := (zpow_add_unit b 53).symm
  rcases lt_or_ge (max (floorLog2 num den - 52) (-1074)) (exponent b) with smaller | same
  · obtain ⟨size, normal⟩ := le_mantissa (b := b) (by omega)
    have short : (num : ℚ) / den < 2 ^ 52 * 2 ^ exponent b := by
      calc (num : ℚ) / den < 2 ^ (floorLog2 num den + 1) := above
        _ ≤ 2 ^ (exponent b + 52) := by
          rw [zpow_le_zpow_iff_right₀ (by norm_num)]
          omega
        _ = 2 ^ 52 * 2 ^ exponent b := zpow_add_unit b 52
    have power : mantissa b = twoTo 52 := by
      by_contra other
      have larger : (2 : ℚ) ^ 52 + 1 ≤ mantissa b := by
        have larger : twoTo 52 + 1 ≤ mantissa b := by omega
        rw [← Nat.cast_le (α := ℚ)] at larger
        push_cast at larger
        rwa [cast_twoTo] at larger
      have reached : 2 ^ 52 * 2 ^ exponent b ≤ (mantissa b - gap b) * 2 ^ exponent b := by
        gcongr
        linarith [gap_le b]
      linarith [rounds.low]
    have near : exponent b + 51 < floorLog2 num den + 1 := by
      rw [← zpow_lt_zpow_iff_right₀ (show (1 : ℚ) < 2 by norm_num)]
      calc (2 : ℚ) ^ (exponent b + 51) = 2 ^ 51 * 2 ^ exponent b := zpow_add_unit b 51
        _ ≤ (mantissa b - gap b) * 2 ^ exponent b := by
          gcongr
          rw [power, cast_twoTo]
          linarith [gap_le b]
        _ ≤ num / den := rounds.low
        _ < 2 ^ (floorLog2 num den + 1) := above
    exact .inr ⟨by omega, power, normal, short⟩
  · exact .inl (by omega)

theorem nearest_eq (num_pos : 0 < num) (den_pos : 0 < den) (rounds : Rounds b (num / den)) :
    nearest num den = b := by
  have unit : (0 : ℚ) < 2 ^ exponent b := by positivity
  have steps (q : Int) : 0 < den * twoTo q.toNat := Nat.mul_pos den_pos (twoTo_pos _)
  have split := exponent_mantissa b
  rw [nearest, if_neg (Nat.ne_of_gt num_pos)]
  simp only
  rcases exponent_cases num_pos den_pos rounds with same | ⟨same, power, normal, short⟩
  · have low := rounds.low
    have high := rounds.high
    have strict := rounds.strict
    rw [← le_div_iff₀ unit] at low
    rw [← div_le_iff₀ unit] at high
    rw [← lt_div_iff₀ unit, ← div_lt_iff₀ unit] at strict
    have rounded : roundHalfEven (num * twoTo (-exponent b).toNat) (den * twoTo (exponent b).toNat) =
        mantissa b := by
      apply roundHalfEven_of_near (steps _)
      · rw [units_eq]
        linarith [gap_le b]
      · rw [units_eq]
        exact high
      · intro odd
        rw [units_eq]
        obtain ⟨left, right⟩ := strict odd
        exact ⟨by linarith [gap_le b], right⟩
    rw [same, rounded, split]
  · have low := rounds.low
    have rounded : roundHalfEven (num * twoTo (-(exponent b - 1)).toNat)
        (den * twoTo (exponent b - 1).toNat) = twoTo 53 := by
      have half : (2 : ℚ) ^ (exponent b - 1) = 2 ^ exponent b / 2 := zpow_sub_one₀ (by norm_num) _
      have quarter : gap b = 1 / 4 := if_pos ⟨power, normal⟩
      rw [quarter, power, cast_twoTo, ← le_div_iff₀ unit] at low
      rw [← div_lt_iff₀ unit] at short
      apply roundHalfEven_of_near (steps _)
      · rw [units_eq, half, cast_twoTo, div_div_eq_mul_div, mul_div_right_comm]
        linarith
      · rw [units_eq, half, cast_twoTo, div_div_eq_mul_div, mul_div_right_comm]
        linarith
      · intro odd
        cases odd
    rw [same, rounded, carry power normal]

private theorem roundHalfEven_le (num den : Nat) : roundHalfEven num den ≤ num / den + 1 := by
  rw [roundHalfEven]
  split
  · exact Nat.le_succ _
  · exact Nat.le_refl _

theorem nearest_lt (num_pos : 0 < num) (den_pos : 0 < den) (small : (num : ℚ) / den < 2 ^ 64) :
    nearest num den < infinity := by
  obtain ⟨below, above⟩ := floorLog2_spec num_pos den_pos
  have lead : floorLog2 num den < 64 := by
    have order : (2 : ℚ) ^ floorLog2 num den < 2 ^ (64 : Int) := lt_of_le_of_lt below (by exact_mod_cast small)
    exact (zpow_lt_zpow_iff_right₀ (by norm_num)).mp order
  rw [nearest, if_neg (Nat.ne_of_gt num_pos)]
  simp only
  generalize unit : max (floorLog2 num den - 52) (-1074) = q
  have place : (q + 1074).toNat ≤ 1085 := by omega
  have mantissa : num * twoTo (-q).toNat / (den * twoTo q.toNat) < twoTo 53 := by
    have steps : 0 < den * twoTo q.toNat := Nat.mul_pos den_pos (twoTo_pos _)
    rw [Nat.div_lt_iff_lt_mul steps, ← Nat.cast_lt (α := ℚ), Nat.cast_mul (twoTo 53),
      ← div_lt_iff₀ (Nat.cast_pos.mpr steps), units_eq, cast_twoTo, div_lt_iff₀ (by positivity)]
    calc (num : ℚ) / den < 2 ^ (floorLog2 num den + 1) := above
      _ ≤ 2 ^ (53 + q) := zpow_le_zpow_right₀ (by norm_num) (by omega)
      _ = 2 ^ 53 * 2 ^ q := by
          rw [zpow_add₀ (by norm_num)]
          norm_cast
  have rounded := roundHalfEven_le (num * twoTo (-q).toNat) (den * twoTo q.toNat)
  rw [twoTo_53] at mantissa
  rw [infinity, twoTo_52]
  have whole : (q + 1074).toNat * 4503599627370496 ≤ 1085 * 4503599627370496 :=
    Nat.mul_le_mul_right _ place
  omega

end Nearest

end Binary64

end PlaneSketch
