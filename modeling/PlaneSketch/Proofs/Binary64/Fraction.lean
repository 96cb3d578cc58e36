import PlaneSketch.Proofs.Binary64.Number

/-! Fractions of the way between doubles. Where the way is rounded and a fraction of that is rounded, the
result is no more than the way: what rounding adds is less than what the fraction takes off. -/
namespace PlaneSketch.Binary64

open Float.Model UnpackedFloat

section Way

variable {f p way : ℚ} {m : Nat} {e : ℤ}

def largestFraction : ℚ := 1 - 2 ^ (-53 : ℤ)

theorem largestFraction_le_one : largestFraction ≤ 1 := sub_le_self 1 (by positivity)

def leastUnit : ℚ := 2 ^ (-1074 : ℤ)

private theorem leastUnit_pos : 0 < leastUnit := zpow_pos (by norm_num) _

theorem exists_units {x : ℚ} (representable : Representable x) : ∃ k : ℤ, x = k * leastUnit := by
  obtain ⟨k, e, -, low, rfl⟩ := representable
  obtain ⟨n, rfl⟩ := Int.le.dest low
  refine ⟨k * 2 ^ n, ?_⟩
  rw [zpow_add₀ (by norm_num), zpow_natCast, ← leastUnit]
  push_cast
  ring

private theorem lt_of_nearest_fraction (many : 2 ^ 52 ≤ m) (few : m < 2 ^ 53) (low : -1074 < e)
    (fraction : f ≤ largestFraction) (nearest : Nearest (f * (m * 2 ^ e)) p) : p < m * 2 ^ e := by
  have unit : (0 : ℚ) < 2 ^ (e - 1) := by positivity
  have double : (2 : ℚ) ^ e = 2 * 2 ^ (e - 1) := by
    rw [zpow_sub_one₀ (by norm_num)]
    ring
  have part : f * (m * 2 ^ e) ≤ m * 2 ^ e - m / 2 ^ 52 * 2 ^ (e - 1) := by
    calc f * (m * 2 ^ e) ≤ largestFraction * (m * 2 ^ e) := by gcongr
      _ = m * 2 ^ e - m / 2 ^ 52 * 2 ^ (e - 1) := by
        rw [largestFraction, double]
        norm_num
        ring
  rcases eq_or_lt_of_le many with power | more
  · -- Below a power of two the doubles are twice as dense, and the one before it is not passed.
    have before : Representable ((2 ^ 53 - 1) * 2 ^ (e - 1)) :=
      ⟨2 ^ 53 - 1, e - 1, by norm_num, by omega, by push_cast; ring⟩
    rw [← power, double] at part
    push_cast at part
    have below := nearest.le before (by rw [← power, double]; push_cast; linarith)
    rw [← power, double]
    push_cast
    linarith
  · have before : Representable ((m - 1) * 2 ^ e) := by
      refine ⟨m - 1, e, ?_, low.le, by push_cast; ring⟩
      rw [abs_lt]
      omega
    have above : (1 : ℚ) < m / 2 ^ 52 := by
      rw [one_lt_div (by positivity)]
      exact_mod_cast more
    have taken : 2 ^ (e - 1) < (m / 2 ^ 52 : ℚ) * 2 ^ (e - 1) := lt_mul_of_one_lt_left unit above
    by_contra reached
    have least := nearest.least _ before
    rcases le_or_gt (((m : ℚ) - 1) * 2 ^ e) (f * (m * 2 ^ e)) with passed | short
    · rw [abs_of_nonneg (by linarith), abs_of_nonpos (by linarith), sub_one_mul] at least
      linarith
    · have below := nearest.le before short.le
      linarith

theorem representable_zero : Representable 0 := ⟨0, 0, by norm_num, by norm_num, by simp⟩

/-- A fraction of the way, taken of what the way is rounded to, is rounded to no more than the way. -/
private theorem between_of_nearest_fraction (few : m < 2 ^ 53) (least : -1074 ≤ e)
    (normal : e = -1074 ∨ 2 ^ 52 ≤ m)
    (whole : ∃ k : ℤ, way = k * leastUnit) (forward : 0 ≤ way) (rounded : Nearest way (m * 2 ^ e))
    (positive : 0 ≤ f) (fraction : f ≤ largestFraction) (nearest : Nearest (f * (m * 2 ^ e)) p) :
    0 ≤ p ∧ p ≤ way := by
  refine ⟨nearest.ge representable_zero (by positivity), ?_⟩
  rcases eq_or_lt_of_le least with rfl | low
  · -- A way that is so short is a double.
    have unit := leastUnit_pos
    obtain ⟨k, rfl⟩ := whole
    have nonNegative : 0 ≤ k := by exact_mod_cast nonneg_of_mul_nonneg_left forward unit
    have short : k < 2 ^ 53 := by
      by_contra beyond
      have large : Representable (2 ^ 53 * leastUnit) := by
        refine ⟨2 ^ 52, -1074 + 1, by norm_num, by norm_num, ?_⟩
        rw [zpow_add_one₀ (by norm_num), ← leastUnit]
        push_cast
        ring
      have bound : (2 : ℚ) ^ 53 ≤ k := by exact_mod_cast not_lt.mp beyond
      have reached : (2 : ℚ) ^ 53 ≤ m :=
        le_of_mul_le_mul_right (rounded.ge large (mul_le_mul_of_nonneg_right bound unit.le)) unit
      exact absurd few (not_lt_of_ge (by exact_mod_cast reached))
    have same := rounded.eq ⟨k, -1074, abs_lt.mpr ⟨by omega, short⟩, le_rfl, rfl⟩
    have below : f ≤ 1 := fraction.trans largestFraction_le_one
    rw [← same]
    exact nearest.le rounded.representable (mul_le_of_le_one_left (by positivity) below)
  · by_contra past
    have reached := rounded.le nearest.representable (not_le.mp past).le
    exact absurd (lt_of_nearest_fraction (normal.resolve_left (by omega)) few low fraction nearest)
      (not_lt_of_ge reached)

private theorem exists_abs_value {w : UnpackedFloat} (canonical : Canonical w) :
    ∃ (m : Nat) (e : ℤ), m < 2 ^ 53 ∧ -1074 ≤ e ∧ (e = -1074 ∨ 2 ^ 52 ≤ m) ∧ |value w| = m * 2 ^ e := by
  cases w with
  | finite s m e positive =>
    exact ⟨m, e, canonical.1, canonical.2.1, canonical.2.2, abs_value_finite s e positive⟩
  | _ => exact ⟨0, -1074, by norm_num, by norm_num, .inl rfl, by simp [value]⟩

theorem Closest.fraction_mem {w : UnpackedFloat} (closest : Closest way w)
    (whole : ∃ k : ℤ, way = k * leastUnit) (positive : 0 ≤ f) (fraction : f ≤ largestFraction)
    (nearest : Nearest (f * value w) p) : p ∈ Set.uIcc 0 way := by
  obtain ⟨m, e, few, least, normal, size⟩ := exists_abs_value closest.canonical
  rw [Set.mem_uIcc]
  rcases le_total 0 way with forward | backward
  · have same : value w = m * 2 ^ e := by
      rw [← size, abs_of_nonneg (closest.nearest.ge representable_zero forward)]
    rw [same] at nearest
    exact .inl (between_of_nearest_fraction few least normal whole forward (same ▸ closest.nearest)
      positive fraction nearest)
  · have same : -value w = m * 2 ^ e := by
      rw [← size, abs_of_nonpos (closest.nearest.le representable_zero backward)]
    have mirrored := nearest.neg
    rw [← mul_neg, same] at mirrored
    obtain ⟨k, rfl⟩ := whole
    obtain ⟨above, below⟩ := between_of_nearest_fraction few least normal
      ⟨-k, by push_cast; ring⟩ (neg_nonneg.mpr backward) (same ▸ closest.nearest.neg) positive fraction mirrored
    exact .inr ⟨neg_le_neg_iff.mp below, neg_nonneg.mp above⟩

theorem mul_mem_uIcc {f : ℚ} (nonNegative : 0 ≤ f) (fraction : f ≤ 1) (x : ℚ) : f * x ∈ Set.uIcc 0 x := by
  rw [Set.mem_uIcc]
  rcases le_total 0 x with above | below
  · exact .inl ⟨mul_nonneg nonNegative above, mul_le_of_le_one_left above fraction⟩
  · exact .inr ⟨le_mul_of_le_one_left below fraction, mul_nonpos_of_nonneg_of_nonpos nonNegative below⟩

end Way

section Doubles

variable {x y : Float}

theorem toRat_fraction (positive : 0 < x) (below : x < 1) : 0 ≤ toRat x ∧ toRat x ≤ largestFraction := by
  have canonical : Canonical x.toModel.unpack := canonical_unpack _
  obtain ⟨m, e, some, unpacked⟩ := exists_unpack_of_pos positive (isFinite_of_between positive below)
  have amount : toRat x = m * 2 ^ e := by
    rw [toRat, unpacked]
    rfl
  obtain ⟨r, atX, s, atOne, low⟩ := lt_iff.mp below
  rw [unpacked] at canonical atX
  rw [show (1 : Float).toModel.unpack = one from rfl] at atOne
  cases atX
  cases atOne
  have fine : e ≤ -53 := by
    by_contra coarse
    have many := canonical.2.2.resolve_left (by omega)
    rcases Prod.Lex.toLex_lt_toLex.mp low with less | ⟨-, low⟩
    · exact absurd less (lt_irrefl 1)
    · rcases Prod.Lex.toLex_lt_toLex.mp low with less | ⟨-, less⟩
      · exact coarse (Int.le_of_lt_add_one less)
      · exact absurd many (not_le_of_gt (Int.ofNat_lt.mp less))
  have few : (m : ℚ) ≤ 2 ^ 53 - 1 := by
    rw [le_sub_iff_add_le]
    exact_mod_cast canonical.1
  rw [amount]
  refine ⟨by positivity, ?_⟩
  calc (m : ℚ) * 2 ^ e ≤ (2 ^ 53 - 1) * 2 ^ (-53 : ℤ) := by
        gcongr
        norm_num
    _ = largestFraction := by norm_num [largestFraction]

private theorem sub_lost {v w : UnpackedFloat} (part : v.isFinite = false ∨ w.isFinite = false) :
    UnpackedFloat.sub format v w = .notANumber ∨ ∃ s, UnpackedFloat.sub format v w = .infinity s := by
  rcases v with (_ | _) | _ | _ | _ <;> rcases w with (_ | _) | _ | _ | _ <;>
    first | exact .inl rfl | exact .inr ⟨_, rfl⟩ | cases part <;> contradiction

theorem isFinite_of_sub (finite : (x - y).isFinite = true) : x.isFinite = true ∧ y.isFinite = true := by
  rw [← Bool.not_eq_false, ← Bool.not_eq_false, ← not_or]
  intro part
  have result : (x - y).toModel.unpack = UnpackedFloat.unpack format (UnpackedFloat.pack format
      (UnpackedFloat.sub format x.toModel.unpack y.toModel.unpack)) := rfl
  change (x - y).toModel.unpack.isFinite = true at finite
  rw [result] at finite
  rcases sub_lost part with other | ⟨s, infinite⟩
  · rw [other, unpack_pack (w := .notANumber) trivial] at finite
    cases finite
  · rw [infinite, unpack_pack (w := .infinity s) trivial] at finite
    cases finite

end Doubles

end PlaneSketch.Binary64
