import PlaneSketch.Proofs.Exact
import PlaneSketch.Geometry.Angle

/-! Angles that count modulo a period. Seen from a start, every angle has one place in the period that begins there,
and the angles between the start and a stop are those whose places come before that of the stop. Of the two ways
round between a start and a stop each angle is on one. -/
namespace PlaneSketch

namespace Scalar

variable {period : ℝ}

private theorem exists_truncMod (positive : 0 < period) (x : ℝ) :
    ∃ n : ℤ, x = truncMod x period + n • period ∧ -period < truncMod x period ∧ truncMod x period < period := by
  have whole : x = x / period * period := (div_mul_cancel₀ x positive.ne').symm
  refine ⟨if x / period < 0 then ⌈x / period⌉ else ⌊x / period⌋, ?_⟩
  change x = x - period * _ + _ ∧ -period < x - period * _ ∧ x - period * _ < period
  rw [zsmul_eq_mul]
  split_ifs
  · have above := mul_le_mul_of_nonneg_right (Int.le_ceil (x / period)) positive.le
    have below := mul_lt_mul_of_pos_right (Int.ceil_lt_add_one (x / period)) positive
    refine ⟨by ring, by linarith, by linarith⟩
  · have below := mul_le_mul_of_nonneg_right (Int.floor_le (x / period)) positive.le
    have above := mul_lt_mul_of_pos_right (Int.lt_floor_add_one (x / period)) positive
    refine ⟨by ring, by linarith, by linarith⟩

private theorem wrap_real (positive : 0 < period) (x : ℝ) : wrap x period = toIcoMod positive 0 x := by
  obtain ⟨n, shifted, above, below⟩ := exists_truncMod positive x
  rw [eq_comm, toIcoMod_eq_iff, zero_add, Set.mem_Ico, wrap, numeral_zero]
  split_ifs with negative
  · refine ⟨⟨by linarith, by linarith⟩, n - 1, ?_⟩
    rw [sub_zsmul, one_zsmul]
    linarith
  · exact ⟨⟨not_lt.mp negative, below⟩, n, shifted⟩

end Scalar

section Between

variable {period : ℝ} {start stop angle : ℝ}

theorem isBetweenModulo_iff (positive : 0 < period) :
    isBetweenModulo period start stop angle = true ↔
      toIcoMod positive start angle < toIcoMod positive start stop := by
  rw [isBetweenModulo, decide_eq_true_eq, Scalar.wrap_real positive, Scalar.wrap_real positive, toIcoMod_sub_eq_sub,
    toIcoMod_sub_eq_sub, zero_add, sub_lt_sub_iff_right]

theorem isBetweenModulo_shifted (positive : 0 < period) (i j k : ℤ) :
    isBetweenModulo period (start + i • period) (stop + j • period) (angle + k • period) =
      isBetweenModulo period start stop angle := by
  rw [Bool.eq_iff_iff, isBetweenModulo_iff positive, isBetweenModulo_iff positive, toIcoMod_add_zsmul,
    toIcoMod_add_zsmul, toIcoMod_add_zsmul', toIcoMod_add_zsmul', add_lt_add_iff_right]

private theorem isBetweenModulo_of_modEq (positive : 0 < period) (same : start ≡ stop [PMOD period]) :
    isBetweenModulo period start stop angle = false := by
  rw [Bool.eq_false_iff, Ne, isBetweenModulo_iff positive, ← (toIcoMod_inj positive).mpr same, toIcoMod_apply_left,
    not_lt]
  exact left_le_toIcoMod positive start angle

theorem lt_toIcoMod (positive : 0 < period) (distinct : ¬start ≡ stop [PMOD period]) :
    start < toIcoMod positive start stop := by
  refine lt_of_le_of_ne (left_le_toIcoMod ..) fun same => distinct ((toIcoMod_inj positive (c := start)).mp ?_)
  rw [toIcoMod_apply_left, ← same]

private theorem toIcoMod_later (positive : 0 < period) {place found : ℝ}
    (begins : place ∈ Set.Ico start (start + period)) (inside : found ∈ Set.Ico start (start + period)) :
    toIcoMod positive place found = if place ≤ found then found else found + period := by
  obtain ⟨late, early⟩ := begins
  obtain ⟨first, last⟩ := inside
  rw [toIcoMod_eq_iff]
  split_ifs with after
  · exact ⟨⟨after, by linarith⟩, 0, by rw [zero_zsmul, add_zero]⟩
  · exact ⟨⟨by linarith, by linarith⟩, -1, by rw [neg_one_zsmul, add_neg_cancel_right]⟩

/-- The way back begins at the stop, and what comes before its end is what the way there leaves out. -/
private theorem isBetweenModulo_swap (positive : 0 < period) (distinct : ¬start ≡ stop [PMOD period]) :
    isBetweenModulo period stop start angle = true ↔
      toIcoMod positive start stop ≤ toIcoMod positive start angle := by
  have places : isBetweenModulo period stop start angle =
      isBetweenModulo period (toIcoMod positive start stop) start (toIcoMod positive start angle) := by
    rw [← isBetweenModulo_shifted positive (-toIcoDiv positive start stop) 0 (-toIcoDiv positive start angle),
      neg_zsmul, neg_zsmul, ← sub_eq_add_neg, ← sub_eq_add_neg, self_sub_toIcoDiv_zsmul, self_sub_toIcoDiv_zsmul,
      zero_zsmul, add_zero]
  have after := lt_toIcoMod positive distinct
  have begins := toIcoMod_mem_Ico positive start stop
  have inside := toIcoMod_mem_Ico positive start angle
  rw [places, isBetweenModulo_iff positive, toIcoMod_later positive begins inside,
    toIcoMod_later positive begins ⟨le_rfl, by linarith⟩, if_neg after.not_ge]
  split_ifs with beyond
  · exact iff_of_true inside.2 beyond
  · exact iff_of_false (add_lt_add_iff_right period |>.not.mpr inside.1.not_gt) beyond

/-- Whole periods make no difference, and unless the start is the stop again, each angle lies on one of the ways from
the one to the other and on one only; if it is, on neither. -/
theorem isBetweenModulo_complement (positive : 0 < period) (start stop angle : ℝ) :
    (∀ i j k : ℤ, isBetweenModulo period (start + i • period) (stop + j • period) (angle + k • period) =
      isBetweenModulo period start stop angle) ∧
    (¬start ≡ stop [PMOD period] →
      Xor (isBetweenModulo period start stop angle = true) (isBetweenModulo period stop start angle = true)) ∧
    (start ≡ stop [PMOD period] →
      isBetweenModulo period start stop angle = false ∧ isBetweenModulo period stop start angle = false) := by
  refine ⟨isBetweenModulo_shifted positive, fun distinct => ?_, fun same => ?_⟩
  · rw [isBetweenModulo_swap positive distinct, isBetweenModulo_iff positive, xor_iff_not_iff']
    exact not_lt
  · exact ⟨isBetweenModulo_of_modEq positive same, isBetweenModulo_of_modEq positive same.symm⟩

theorem isBetweenModulo_complement_seam :
    (0 : ℝ) < 4 ∧ ¬(3 : ℝ) ≡ 5 [PMOD 4] ∧
      isBetweenModulo (4 : ℝ) 3 5 8 = true ∧ isBetweenModulo (4 : ℝ) 5 3 8 = false := by
  have positive : (0 : ℝ) < 4 := by norm_num
  have distinct : ¬(3 : ℝ) ≡ 5 [PMOD 4] := by
    rw [AddCommGroup.modEq_iff_eq_add_zsmul]
    rintro ⟨n, shifted⟩
    rw [zsmul_eq_mul] at shifted
    have whole : (5 : ℤ) = 3 + n * 4 := by exact_mod_cast shifted
    omega
  have between : isBetweenModulo (4 : ℝ) 3 5 8 = true := by
    have place : toIcoMod positive 3 8 = 4 := (toIcoMod_eq_iff positive).mpr ⟨by norm_num, 1, by norm_num⟩
    have last : toIcoMod positive 3 5 = 5 := (toIcoMod_eq_self positive).mpr (by norm_num)
    rw [isBetweenModulo_iff positive, place, last]
    norm_num
  obtain ⟨-, back⟩ | ⟨-, neither⟩ := (isBetweenModulo_complement positive 3 5 8).2.1 distinct
  · exact ⟨positive, distinct, between, Bool.eq_false_iff.mpr back⟩
  · exact absurd between neither

end Between

end PlaneSketch
