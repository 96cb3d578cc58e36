import Mathlib.Algebra.Order.Field.Power
import Mathlib.Data.Rat.Cast.Order
import Mathlib.Tactic.FieldSimp
import Mathlib.Tactic.Linarith
import Mathlib.Tactic.Positivity
import Mathlib.Tactic.Ring
import PlaneSketch.Proofs.Binary64.Sign

/-! The numbers that doubles stand for, and that rounding goes to one of the nearest of them. -/
namespace PlaneSketch.Binary64

open Float.Model UnpackedFloat

/-- What a double stands for; infinities and what is no number are left at zero. -/
def value : UnpackedFloat → ℚ
  | .finite s m e _ => s.apply m * 2 ^ e
  | _ => 0

/-- The numbers with at most 53 bits, of which the last is not too fine. There is no largest one. -/
def Representable (x : ℚ) : Prop := ∃ k e : ℤ, |k| < 2 ^ 53 ∧ -1074 ≤ e ∧ x = k * 2 ^ e

theorem Representable.neg {x : ℚ} (representable : Representable x) : Representable (-x) := by
  obtain ⟨k, e, few, low, rfl⟩ := representable
  exact ⟨-k, e, by rwa [abs_neg], low, by push_cast; ring⟩

theorem representable_value {w : UnpackedFloat} (canonical : Canonical w) : Representable (value w) := by
  cases w with
  | finite s m e positive =>
    refine ⟨s.apply m, e, ?_, canonical.2.1, rfl⟩
    have size : |s.apply (m : ℤ)| = m := by
      cases s with
      | positive => exact abs_of_nonneg (Int.natCast_nonneg m)
      | negative => exact (abs_neg _).trans (abs_of_nonneg (Int.natCast_nonneg m))
    rw [size]
    exact_mod_cast canonical.1
  | _ => exact ⟨0, 0, by norm_num, by norm_num, by simp [value]⟩

/-- A number with 53 bits that no other one is nearer to `x` than. -/
structure Nearest (x y : ℚ) : Prop where
  representable : Representable y
  least : ∀ z, Representable z → |y - x| ≤ |z - x|

namespace Nearest

variable {x y z : ℚ}

private theorem refl (representable : Representable x) : Nearest x x := by
  refine ⟨representable, fun z _ => ?_⟩
  rw [sub_self, abs_zero]
  exact abs_nonneg _

theorem eq (nearest : Nearest x y) (representable : Representable x) : y = x := by
  have none := nearest.least x representable
  rw [sub_self, abs_zero] at none
  exact sub_eq_zero.mp (abs_eq_zero.mp (le_antisymm none (abs_nonneg _)))

theorem neg (nearest : Nearest x y) : Nearest (-x) (-y) := by
  refine ⟨nearest.representable.neg, fun z representable => ?_⟩
  have near := nearest.least (-z) representable.neg
  have left : |-y - -x| = |y - x| := by rw [neg_sub_neg, abs_sub_comm]
  have right : |z - -x| = |-z - x| := by rw [← abs_neg (-z - x), neg_sub, sub_neg_eq_add, sub_neg_eq_add, add_comm]
  rwa [left, right]

theorem ge (nearest : Nearest x y) (representable : Representable z) (below : z ≤ x) : z ≤ y := by
  by_contra lower
  have near := nearest.least z representable
  rw [abs_of_nonpos (by linarith), abs_of_nonpos (by linarith)] at near
  linarith

theorem le (nearest : Nearest x y) (representable : Representable z) (above : x ≤ z) : y ≤ z := by
  by_contra higher
  have near := nearest.least z representable
  rw [abs_of_nonneg (by linarith), abs_of_nonneg (by linarith)] at near
  linarith

theorem mem_uIcc {a b : ℚ} (nearest : Nearest x y) (first : Representable a) (second : Representable b)
    (between : x ∈ Set.uIcc a b) : y ∈ Set.uIcc a b := by
  rw [Set.mem_uIcc] at between ⊢
  exact between.imp (fun ⟨low, high⟩ => ⟨nearest.ge first low, nearest.le second high⟩)
    fun ⟨low, high⟩ => ⟨nearest.ge second low, nearest.le first high⟩

end Nearest

/-- A finite result of rounding `x`, which may be too large for a double still. -/
structure Closest (x : ℚ) (w : UnpackedFloat) : Prop where
  canonical : Canonical w
  finite : w.isFinite = true
  nearest : Nearest x (value w)

section Mantissa

def halves (em : ExtendedMantissa) : ℚ := em.mantissa + if em.roundBit then 1 / 2 else 0

/-- What a mantissa that is being shifted keeps of a number: its halves, and whether there is more. -/
structure Represents (em : ExtendedMantissa) (x : ℚ) : Prop where
  low : halves em ≤ x
  high : x < halves em + 1 / 2
  sticky : em.stickyBit = true ↔ halves em ≠ x

variable {em : ExtendedMantissa} {x : ℚ}

private theorem represents_exact (m : Nat) : Represents (.ofMantissaAndAccuracy m .exact) m := by
  have whole : halves (.ofMantissaAndAccuracy m .exact) = m := by
    simp [halves, ExtendedMantissa.ofMantissaAndAccuracy]
  refine ⟨whole.le, ?_, ?_⟩
  · rw [whole]
    linarith
  · rw [whole]
    simp [ExtendedMantissa.ofMantissaAndAccuracy]

private theorem halves_shiftRightOne (em : ExtendedMantissa) : halves em.shiftRightOne = em.mantissa / 2 := by
  have parts : ((2 * (em.mantissa / 2) + em.mantissa % 2 : Nat) : ℚ) = em.mantissa := by
    rw [Nat.div_add_mod]
  rw [halves, ExtendedMantissa.shiftRightOne]
  rcases Nat.mod_two_eq_zero_or_one em.mantissa with even | odd
  · rw [even] at parts ⊢
    push_cast at parts
    simp
    linarith
  · rw [odd] at parts ⊢
    push_cast at parts
    simp
    linarith

private theorem Represents.shiftRightOne (represents : Represents em x) :
    Represents em.shiftRightOne (x / 2) := by
  have bounds : (em.mantissa : ℚ) ≤ x ∧ x < em.mantissa + 1 ∧
      ((em.roundBit || em.stickyBit) = true ↔ (em.mantissa : ℚ) ≠ x) := by
    obtain ⟨low, high, sticky⟩ := represents
    rw [halves] at low high sticky
    cases round : em.roundBit with
    | false =>
      rw [round] at low high sticky
      simp only [Bool.false_eq_true, if_false, add_zero] at low high sticky
      exact ⟨low, by linarith, by rw [Bool.false_or, sticky]⟩
    | true =>
      rw [round] at low high
      simp only [if_true] at low high
      exact ⟨by linarith, by linarith, by simp; linarith⟩
  obtain ⟨low, high, more⟩ := bounds
  refine ⟨?_, ?_, ?_⟩
  · rw [halves_shiftRightOne]
    linarith
  · rw [halves_shiftRightOne]
    linarith
  · rw [halves_shiftRightOne]
    refine more.trans (not_congr ⟨fun same => by rw [same], fun same => by linarith⟩)

private theorem Represents.shiftRight (represents : Represents em x) (n : Nat) :
    Represents (em >>> n) (x / 2 ^ n) := by
  change Represents (n.repeat ExtendedMantissa.shiftRightOne em) (x / 2 ^ n)
  induction n with
  | zero => simpa [Nat.repeat] using represents
  | succ n ih =>
    rw [pow_succ, ← div_div]
    exact ih.shiftRightOne

private theorem Represents.abs_roundedMantissa_sub_le (represents : Represents em x) :
    |(em.roundedMantissa : ℚ) - x| ≤ 1 / 2 := by
  obtain ⟨m, round, sticky⟩ := em
  obtain ⟨low, high, more⟩ := represents
  rw [abs_le]
  cases round with
  | false =>
    simp only [halves, Bool.false_eq_true, if_false, add_zero] at low high
    have down : ExtendedMantissa.roundedMantissa ⟨m, false, sticky⟩ = m := by cases sticky <;> rfl
    rw [down]
    constructor <;> linarith
  | true =>
    simp only [halves, if_true] at low high more
    cases sticky with
    | false =>
      have tie : (m : ℚ) + 1 / 2 = x := by simpa using more
      have even : ExtendedMantissa.roundedMantissa ⟨m, true, false⟩ = m + m % 2 := rfl
      rcases Nat.mod_two_eq_zero_or_one m with parity | parity
      · rw [even, parity]
        push_cast
        constructor <;> linarith
      · rw [even, parity]
        push_cast
        constructor <;> linarith
    | true =>
      have up : ExtendedMantissa.roundedMantissa ⟨m, true, true⟩ = m + 1 := rfl
      rw [up]
      push_cast
      constructor <;> linarith

end Mantissa

section Rounding

private theorem abs_sub_le_of_le_half {x : ℚ} {r : ℤ} (near : |(r : ℚ) - x| ≤ 1 / 2) (k : ℤ) :
    |(r : ℚ) - x| ≤ |(k : ℚ) - x| := by
  by_cases same : k = r
  · rw [same]
  · have apart : (1 : ℚ) ≤ |(k : ℚ) - r| := by exact_mod_cast Int.one_le_abs (sub_ne_zero.mpr same)
    have way : |(k : ℚ) - r| ≤ |(k : ℚ) - x| + |(r : ℚ) - x| := by
      rw [abs_sub_comm (r : ℚ) x]
      exact abs_sub_le _ _ _
    linarith

private theorem abs_units_sub_le {x y : ℚ} {r t : ℤ} (near : |(r : ℚ) - x| ≤ 1 / 2)
    (normal : t = -1074 ∨ 2 ^ 52 ≤ x) (representable : Representable y) :
    |r * (2 : ℚ) ^ t - x * 2 ^ t| ≤ |y - x * 2 ^ t| := by
  have unit : (0 : ℚ) < 2 ^ t := by positivity
  have scaled (z : ℚ) : |z * 2 ^ t - x * 2 ^ t| = |z - x| * 2 ^ t := by
    rw [← sub_mul, abs_mul, abs_of_pos unit]
  obtain ⟨k, e, few, low, rfl⟩ := representable
  rcases le_or_gt t e with coarse | fine
  · -- The other number is a whole number of the units, too.
    obtain ⟨n, rfl⟩ := Int.le.dest coarse
    have whole : (k : ℚ) * 2 ^ (t + n : ℤ) = ((k * 2 ^ n : ℤ) : ℚ) * 2 ^ t := by
      rw [zpow_add₀ (by norm_num), zpow_natCast]
      push_cast
      ring
    rw [whole, scaled, scaled]
    exact mul_le_mul_of_nonneg_right (abs_sub_le_of_le_half near _) unit.le
  · -- The other number is smaller than any with 53 bits in the units.
    have many : 2 ^ 52 ≤ x := normal.resolve_left (by omega)
    have size : (k : ℚ) * 2 ^ e ≤ 2 ^ 52 * 2 ^ t := by
      have bound : (k : ℚ) ≤ 2 ^ 53 := by
        exact_mod_cast (le_abs_self k).trans few.le
      calc (k : ℚ) * 2 ^ e ≤ 2 ^ 53 * 2 ^ e := by gcongr
        _ ≤ 2 ^ 53 * 2 ^ (t - 1) := by
          gcongr
          · norm_num
          · omega
        _ = 2 ^ 52 * 2 ^ t := by
          rw [zpow_sub₀ (by norm_num)]
          ring
    have least : |(r : ℚ) - x| ≤ x - 2 ^ 52 := by
      have step := abs_sub_le_of_le_half near (2 ^ 52)
      rwa [Int.cast_pow, Int.cast_ofNat, abs_of_nonpos (sub_nonpos.mpr many), neg_sub] at step
    calc |r * (2 : ℚ) ^ t - x * 2 ^ t| = |(r : ℚ) - x| * 2 ^ t := scaled r
      _ ≤ (x - 2 ^ 52) * 2 ^ t := by gcongr
      _ = x * 2 ^ t - 2 ^ 52 * 2 ^ t := by ring
      _ ≤ x * 2 ^ t - k * 2 ^ e := by linarith
      _ ≤ |k * (2 : ℚ) ^ e - x * 2 ^ t| := by
        rw [abs_sub_comm]
        exact le_abs_self _

private theorem value_roundWithAccuracy {m : Nat} {e : Int} (sign : Sign) (positive : 0 < m)
    (fine : e ≤ target m e) :
    let w := roundWithAccuracy format sign m e .exact
    Canonical w ∧ w.isFinite = true ∧ value w = sign.apply (rounded m e .exact) * 2 ^ target m e := by
  have above : -1074 ≤ target m e := le_max_right _ _
  obtain ⟨-, normal⟩ := quotient_bounds positive fine
  obtain ⟨near, -⟩ := le_rounded m e .exact
  intro w
  rcases roundWithAccuracy_cases sign .exact positive fine with
    ⟨none, result⟩ | ⟨short, some, result⟩ | ⟨long, some, result⟩
  · rw [show w = _ from result, none]
    exact ⟨trivial, rfl, by cases sign <;> simp [value, Sign.apply]⟩
  · rw [show w = _ from result]
    exact ⟨⟨short, above, normal.imp_right fun many => many.trans near⟩, rfl, rfl⟩
  · rw [show w = _ from result, long]
    refine ⟨⟨by decide, by omega, .inr le_rfl⟩, rfl, ?_⟩
    rw [value, zpow_add_one₀ (by norm_num)]
    cases sign with
    | positive =>
      simp only [Sign.apply]
      push_cast
      ring
    | negative =>
      simp only [Sign.apply]
      push_cast
      ring

theorem closest_roundWithAccuracy {m : Nat} {e : Int} (sign : Sign) (positive : 0 < m)
    (fine : e ≤ target m e) :
    Closest (sign.apply m * 2 ^ e) (roundWithAccuracy format sign m e .exact) := by
  let x : ℚ := m / 2 ^ (target m e - e).toNat
  have near : |((rounded m e .exact : ℤ) : ℚ) - x| ≤ 1 / 2 :=
    ((represents_exact m).shiftRight _).abs_roundedMantissa_sub_le
  have place : (m : ℚ) * 2 ^ e = x * 2 ^ target m e := by
    obtain ⟨k, shift⟩ := Int.eq_ofNat_of_zero_le (Int.sub_nonneg_of_le fine)
    have exponent : target m e = e + k := by omega
    simp only [x, shift, Int.toNat_natCast]
    rw [exponent, zpow_add₀ (by norm_num), zpow_natCast]
    field_simp
  have normal : target m e = -1074 ∨ 2 ^ 52 ≤ x := by
    refine (quotient_bounds positive fine).2.imp_right fun many => ?_
    rw [le_div_iff₀ (by positivity)]
    exact_mod_cast (Nat.le_div_iff_mul_le (Nat.two_pow_pos _)).mp many
  obtain ⟨canonical, finite, result⟩ := value_roundWithAccuracy sign positive fine
  refine ⟨canonical, finite, representable_value canonical, fun y representable => ?_⟩
  rw [result]
  cases sign with
  | positive =>
    change |((rounded m e .exact : ℤ) : ℚ) * 2 ^ target m e - (m : ℤ) * 2 ^ e| ≤ |y - (m : ℤ) * 2 ^ e|
    rw [Int.cast_natCast m, place]
    exact abs_units_sub_le near normal representable
  | negative =>
    have mirrored := abs_units_sub_le near normal representable.neg
    rw [← place] at mirrored
    change |((-(rounded m e .exact : ℤ) : ℤ) : ℚ) * 2 ^ target m e - ((-(m : ℤ) : ℤ) : ℚ) * 2 ^ e| ≤
      |y - ((-(m : ℤ) : ℤ) : ℚ) * 2 ^ e|
    rw [← abs_neg, ← abs_neg (y - _)]
    push_cast at mirrored ⊢
    convert mirrored using 2 <;> ring

theorem closest_value {w : UnpackedFloat} (canonical : Canonical w) (finite : w.isFinite = true) :
    Closest (value w) w :=
  ⟨canonical, finite, .refl (representable_value canonical)⟩

theorem log2_mul_two_pow {m : Nat} (positive : 0 < m) (k : Nat) : (m * 2 ^ k).log2 = m.log2 + k := by
  apply Nat.log2_eq_iff (Nat.ne_of_gt (Nat.mul_pos positive (Nat.two_pow_pos k))) |>.mpr
  rw [Nat.pow_add, Nat.add_right_comm, Nat.pow_add]
  exact ⟨Nat.mul_le_mul_right _ (Nat.log2_self_le (Nat.ne_of_gt positive)),
    Nat.mul_lt_mul_of_pos_right Nat.lt_log2_self (Nat.two_pow_pos k)⟩

private theorem cast_units {m : Nat} {e low : Int} (below : low ≤ e) :
    (units m e low : ℚ) * 2 ^ low = m * 2 ^ e := by
  obtain ⟨k, rfl⟩ := Int.le.dest below
  rw [units, add_sub_cancel_left, Int.toNat_natCast, zpow_add₀ (by norm_num), zpow_natCast]
  push_cast
  ring

theorem cast_apply_units (s : Sign) {m : Nat} {e low : Int} (below : low ≤ e) :
    ((s.apply (units m e low) : ℤ) : ℚ) * 2 ^ low = s.apply m * 2 ^ e := by
  have part := cast_units (m := m) below
  cases s with
  | positive => simpa [Sign.apply] using part
  | negative => simpa [Sign.apply] using part

private theorem closest_round {m : Nat} {e : Int} (sign : Sign) (positive : 0 < m) :
    Closest (sign.apply m * 2 ^ e) (UnpackedFloat.round format sign m e) := by
  rcases le_or_gt e (target m e) with fine | coarse
  · rw [round_eq sign fine]
    exact closest_roundWithAccuracy sign positive fine
  · -- The mantissa is stretched first, and rounding keeps it then.
    have some := units_pos positive e (target m e)
    have target_eq : target (units m e (target m e)) (target m e) = target m e := by
      rw [units, target, log2_mul_two_pow positive]
      rw [target] at coarse ⊢
      omega
    have round : UnpackedFloat.round format sign m e =
        roundWithAccuracy format sign (units m e (target m e)) (target m e) .exact := by
      have exponent : e - ((e - target m e).toNat : Int) = target m e := by omega
      rw [UnpackedFloat.round, targetExponent_eq, decreaseExponent]
      simp only [Nat.shiftLeft_eq, exponent, units]
    rw [round, ← cast_apply_units sign coarse.le]
    exact closest_roundWithAccuracy sign some target_eq.ge

theorem closest_normalize (total low : Int) (zero : Sign) :
    Closest (total * 2 ^ low) (UnpackedFloat.normalize format total low zero) := by
  unfold UnpackedFloat.normalize
  rcases lt_trichotomy total 0 with below | none | above
  · have round := closest_round (m := (-total).toNat) (e := low) .negative (by omega)
    have same : Sign.apply .negative ((-total).toNat : Int) = total := by
      change -((-total).toNat : Int) = total
      omega
    rw [compare_lt_iff_lt.mpr below]
    rwa [same] at round
  · rw [none, compare_eq_iff_eq.mpr rfl]
    have zero : Closest (value (.zero zero)) (.zero zero) := closest_value trivial rfl
    simpa [value] using zero
  · have round := closest_round (m := total.toNat) (e := low) .positive (by omega)
    have same : Sign.apply .positive (total.toNat : Int) = total := by
      change (total.toNat : Int) = total
      omega
    rw [compare_gt_iff_gt.mpr above]
    rwa [same] at round

end Rounding

end PlaneSketch.Binary64
