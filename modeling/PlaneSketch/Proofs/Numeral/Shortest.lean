import PlaneSketch.Numeral.Shortest
import PlaneSketch.Proofs.Numeral

/-! The fewest digits of a magnitude round to it. Some place is fine enough that the multiple below
the magnitude does, so the search for a place always ends with digits that do. -/
namespace PlaneSketch

namespace Tie

variable {num den d : Nat} {low high : Bool}

private theorem round_cases (tie : Tie) (positive : 0 < den) :
    tie.round num den = num / den ∨ tie.round num den = num / den + 1 := by
  cases tie with
  | toEven =>
    rw [round, Binary64.roundHalfEven]
    split
    · exact .inl rfl
    · exact .inr rfl
  | up =>
    have parts := Nat.div_add_mod' num den
    have small := Nat.mod_lt num positive
    have low : num / den ≤ (2 * num + den) / (2 * den) := by
      rw [Nat.le_div_iff_mul_le (by omega), Nat.mul_left_comm]
      omega
    have high : (2 * num + den) / (2 * den) < num / den + 2 := by
      rw [Nat.div_lt_iff_lt_mul (by omega), Nat.mul_left_comm, Nat.add_mul]
      omega
    rw [round]
    omega

/-- Only an integer that will do is chosen. -/
private theorem choose?_cases (tie : Tie) (positive : 0 < den)
    (chosen : tie.choose? num den low high = some d) :
    (d = num / den ∧ low = true) ∨ (d = num / den + 1 ∧ high = true) := by
  cases low with
  | false =>
    cases high with
    | false => cases chosen
    | true =>
      cases chosen
      exact .inr ⟨rfl, rfl⟩
  | true =>
    cases high with
    | false =>
      cases chosen
      exact .inl ⟨rfl, rfl⟩
    | true =>
      cases chosen
      exact (round_cases tie positive).imp (⟨·, rfl⟩) (⟨·, rfl⟩)

private theorem exists_choose? (tie : Tie) (num den : Nat) (high : Bool) :
    ∃ d, tie.choose? num den true high = some d := by
  cases high with
  | false => exact ⟨_, rfl⟩
  | true => exact ⟨_, rfl⟩

end Tie

namespace Decimal

open Binary64

section Units

variable {b : Nat} (place : Int)

def step (b : Nat) (place : Int) : Nat := twoTo (exponent b).toNat * tenTo (-place).toNat

def unit (b : Nat) (place : Int) : Nat := twoTo (-exponent b).toNat * tenTo place.toNat

theorem inUnits_eq (b : Nat) : inUnits b place = (mantissa b * step b place, unit b place) := by
  rw [inUnits, step, ← Nat.mul_assoc]
  rfl

theorem unit_pos (b : Nat) : 0 < unit b place := Nat.mul_pos (twoTo_pos _) (tenTo_pos _)

theorem step_pos (b : Nat) : 0 < step b place := Nat.mul_pos (twoTo_pos _) (tenTo_pos _)

/-- The last bit and the unit of the last digit, measured with one another. -/
theorem exists_scale (b : Nat) :
    ∃ k : ℚ, 0 < k ∧ 2 ^ exponent b = k * step b place ∧ 10 ^ place = k * unit b place := by
  have positive : (0 : ℚ) < unit b place := Nat.cast_pos.mpr (unit_pos place b)
  refine ⟨10 ^ place / unit b place, by positivity, ?_, by field_simp⟩
  rw [div_mul_eq_mul_div, eq_div_iff (ne_of_gt positive), zpow_eq_div two_pos,
    zpow_eq_div (show (0 : ℚ) < 10 by norm_num), step, unit]
  push_cast
  rw [cast_twoTo, cast_twoTo, cast_tenTo, cast_tenTo]
  field_simp

end Units

section ReadsBack

variable {b d : Nat} {place : Int}

private theorem gap_eq (b : Nat) (place : Int) :
    ((if mantissa b = twoTo 52 ∧ twoTo 53 ≤ b then step b place else 2 * step b place : Nat) : ℚ) =
      4 * gap b * step b place := by
  rw [gap]
  split
  · ring
  · push_cast
    ring

theorem readsBack_iff (positive : 0 < b) : readsBack b place d = true ↔
    4 * (mantissa b * step b place) + (if mantissa b % 2 = 0 then 0 else 1) ≤ 4 * d * unit b place +
        (if mantissa b = twoTo 52 ∧ twoTo 53 ≤ b then step b place else 2 * step b place) ∧
      4 * d * unit b place + (if mantissa b % 2 = 0 then 0 else 1) ≤
        4 * (mantissa b * step b place) + 2 * step b place := by
  have whole : mantissa b * step b place / mantissa b = step b place :=
    Nat.mul_div_cancel_left _ (mantissa_pos positive)
  rw [readsBack, inUnits_eq]
  simp only [whole, decide_eq_true_eq]

theorem rounds_of_readsBack (positive : 0 < b) (back : readsBack b place d = true) :
    Rounds b (d * 10 ^ place) := by
  obtain ⟨k, scale, bit, digit⟩ := exists_scale place b
  obtain ⟨below, above⟩ := (readsBack_iff positive).mp back
  rw [← Nat.cast_le (α := ℚ)] at below above
  rw [Nat.cast_add, Nat.cast_add _ (ite _ _ _), gap_eq] at below
  push_cast at below above
  have low : (mantissa b - gap b) * (k * step b place) = k * ((mantissa b - gap b) * step b place) := by
    ring
  have high : (mantissa b + 1 / 2) * (k * step b place) = k * ((mantissa b + 1 / 2) * step b place) := by
    ring
  have middle : (d : ℚ) * (k * unit b place) = k * (d * unit b place) := by ring
  have slack : (0 : ℚ) ≤ if mantissa b % 2 = 0 then 0 else 1 := by
    split <;> norm_num
  refine ⟨?_, ?_, ?_⟩
  · rw [bit, digit, low, middle]
    apply mul_le_mul_of_nonneg_left _ scale.le
    linarith
  · rw [bit, digit, high, middle]
    apply mul_le_mul_of_nonneg_left _ scale.le
    linarith
  · intro odd
    rw [if_neg (by omega)] at below above
    rw [bit, digit, low, high, middle, mul_lt_mul_iff_right₀ scale, mul_lt_mul_iff_right₀ scale]
    constructor <;> linarith

theorem pos_of_readsBack (positive : 0 < b) (back : readsBack b place d = true) : 0 < d := by
  rw [Nat.pos_iff_ne_zero]
  intro zero
  have least := (rounds_of_readsBack positive back).least_le positive
  rw [zero, Nat.cast_zero, zero_mul] at least
  exact absurd least (not_le_of_gt (by positivity))

private theorem readsBack_of_candidate {tie : Tie} (found : candidate? tie b place = some d) :
    readsBack b place d = true := by
  have choices : candidate? tie b place = tie.choose? (inUnits b place).1 (inUnits b place).2 _ _ := rfl
  rw [choices] at found
  rcases tie.choose?_cases (unit_pos place b) found with ⟨same, back⟩ | ⟨same, back⟩
  · rw [same]
    exact back
  · rw [same]
    exact back

/-- Where a unit is much less than a step, the multiple below the magnitude reads back. -/
private theorem exists_candidate (tie : Tie) (positive : 0 < b) (fine : 4 * unit b place < step b place) :
    ∃ d, candidate? tie b place = some d := by
  have low : readsBack b place (mantissa b * step b place / unit b place) = true := by
    have parts := Nat.div_add_mod' (mantissa b * step b place) (unit b place)
    have small := Nat.mod_lt (mantissa b * step b place) (unit_pos place b)
    rw [readsBack_iff positive, Nat.mul_assoc]
    constructor
    · split <;> split <;> omega
    · split <;> omega
  rw [candidate?, inUnits_eq]
  simp only
  rw [low]
  exact tie.exists_choose? _ _ _

end ReadsBack

section Lead

variable {num den b : Nat}

private theorem zpow_floorLog10_le (num_pos : 0 < num) (den_pos : 0 < den) :
    (10 : ℚ) ^ floorLog10 num den ≤ num / den := by
  have cast : (0 : ℚ) < den := Nat.cast_pos.mpr den_pos
  rw [floorLog10, le_div_iff₀ cast]
  split
  case isTrue larger =>
    have whole : 0 < num / den := Nat.div_pos larger den_pos
    have power : 10 ^ ((Nat.toDigits 10 (num / den)).length - 1) * den ≤ num :=
      (Nat.mul_le_mul_right den (Numeral.toDigits_bounds whole).1).trans (Nat.div_mul_le_self num den)
    have some : 0 < (Nat.toDigits 10 (num / den)).length := Nat.length_toDigits_pos
    have places : ((Nat.toDigits 10 (num / den)).length : Int) - 1 =
        ((Nat.toDigits 10 (num / den)).length - 1 : Nat) := by omega
    rw [places, zpow_natCast]
    exact_mod_cast power
  case isFalse smaller =>
    let c := (den + num - 1) / num - 1
    have parts := Nat.div_add_mod' (den + num - 1) num
    have rest := Nat.mod_lt (den + num - 1) num_pos
    have two : 2 ≤ (den + num - 1) / num := by
      rw [Nat.le_div_iff_mul_le num_pos]
      omega
    have power : c + 1 ≤ 10 ^ (Nat.toDigits 10 c).length :=
      (Numeral.toDigits_bounds (show 0 < c by omega)).2
    have reached : den ≤ 10 ^ (Nat.toDigits 10 c).length * num := by
      have ceiling : den ≤ (c + 1) * num := by
        rw [show c + 1 = (den + num - 1) / num by omega]
        omega
      exact ceiling.trans (Nat.mul_le_mul_right num power)
    rw [zpow_neg, inv_mul_le_iff₀ (by positivity), zpow_natCast]
    exact_mod_cast reached

private theorem zpow_leadOf_le (positive : 0 < b) : (10 : ℚ) ^ leadOf b ≤ mantissa b * 2 ^ exponent b := by
  obtain ⟨k, scale, bit, digit⟩ := exists_scale 0 b
  have least : (10 : ℚ) ^ leadOf b ≤ (mantissa b * step b 0 : Nat) / (unit b 0 : Nat) := by
    rw [leadOf, inUnits_eq]
    exact zpow_floorLog10_le (Nat.mul_pos (mantissa_pos positive) (step_pos 0 b)) (unit_pos 0 b)
  have one : (1 : ℚ) = k * unit b 0 := by rw [← digit, zpow_zero]
  have cast : (0 : ℚ) < unit b 0 := Nat.cast_pos.mpr (unit_pos 0 b)
  calc (10 : ℚ) ^ leadOf b ≤ (mantissa b * step b 0 : Nat) / (unit b 0 : Nat) := least
    _ = mantissa b * 2 ^ exponent b := by
        rw [bit, div_eq_iff (ne_of_gt cast)]
        push_cast
        calc (mantissa b * step b 0 : ℚ) = mantissa b * step b 0 * (k * unit b 0) := by
              rw [← one, mul_one]
          _ = mantissa b * (k * step b 0) * unit b 0 := by ring

private theorem unit_lt_step (positive : 0 < b) : 4 * unit b (leadOf b - 18) < step b (leadOf b - 18) := by
  obtain ⟨k, scale, bit, digit⟩ := exists_scale (leadOf b - 18) b
  have least := zpow_leadOf_le positive
  have size : (mantissa b : ℚ) < 2 ^ 53 := by exact_mod_cast mantissa_lt b
  have bits : (0 : ℚ) < step b (leadOf b - 18) := Nat.cast_pos.mpr (step_pos _ b)
  have shift : (10 : ℚ) ^ leadOf b = 10 ^ 18 * 10 ^ (leadOf b - 18) := by
    rw [← zpow_natCast, ← zpow_add₀ (by norm_num)]
    congr 1
    norm_num
  rw [shift, digit, bit, mul_left_comm, mul_left_comm (mantissa b : ℚ),
    mul_le_mul_iff_right₀ scale] at least
  rw [← Nat.cast_lt (α := ℚ)]
  push_cast
  nlinarith

end Lead

def value (d : Decimal) : ℚ := Numeral.digitsValue d.digits * 10 ^ (d.lead - d.digits.length + 1)

theorem value_ofMultiple (d : Nat) (place : Int) : (ofMultiple d place).value = d * 10 ^ place := by
  change (Numeral.digitsValue (Nat.toDigits 10 d) : ℚ) *
    10 ^ (place + (Nat.toDigits 10 d).length - 1 - (Nat.toDigits 10 d).length + 1) = _
  rw [Numeral.digitsValue_toDigits]
  congr 2
  omega

theorem exists_shortest (tie : Tie) {b : Nat} (positive : 0 < b) :
    ∃ d place, readsBack b place d = true ∧ shortest tie b = ofMultiple d place := by
  let places : List Int := (List.range 20).map fun i : Nat => leadOf b + 1 - i
  let digitsAt (place : Int) : Option Decimal := (candidate? tie b place).map (ofMultiple · place)
  have reached : (places.findSome? digitsAt).isSome = true := by
    obtain ⟨d, found⟩ := exists_candidate tie positive (unit_lt_step positive)
    rw [List.findSome?_isSome_iff]
    refine ⟨leadOf b - 18, List.mem_map.mpr ⟨19, by decide, by omega⟩, ?_⟩
    rw [show digitsAt (leadOf b - 18) = some (ofMultiple d (leadOf b - 18)) by
      simp only [digitsAt, found, Option.map_some]]
    rfl
  obtain ⟨digits, first⟩ := Option.isSome_iff_exists.mp reached
  obtain ⟨place, -, here⟩ := List.exists_of_findSome?_eq_some first
  obtain ⟨d, found, same⟩ := Option.map_eq_some_iff.mp here
  refine ⟨d, place, readsBack_of_candidate found, ?_⟩
  rw [shortest, if_neg (Nat.ne_of_gt positive)]
  change (places.findSome? digitsAt).getD ⟨['0'], 0⟩ = _
  rw [first, same]
  rfl

end Decimal

end PlaneSketch
