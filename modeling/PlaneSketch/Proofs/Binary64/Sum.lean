import PlaneSketch.Proofs.Binary64.Order
import PlaneSketch.Proofs.Binary64.Rounding

/-! Sums of doubles that are not negative. Such a sum is no less than its parts, so a bound on it is a
bound on each of them. -/
namespace PlaneSketch.Binary64

open Float.Model UnpackedFloat

theorem round_eq {m : Nat} {e : Int} (sign : Sign) (fine : e ≤ target m e) :
    UnpackedFloat.round format sign m e = roundWithAccuracy format sign m e .exact := by
  have same : (e - target m e).toNat = 0 := by omega
  have unchanged : decreaseExponent m e (target m e) = (m, e) := by
    rw [decreaseExponent, same]
    simp
  rw [UnpackedFloat.round, targetExponent_eq, unchanged]

/-- A number with the exponent and mantissa of a double, in units of `2 ^ low`. -/
def units (m : Nat) (e low : Int) : Nat := m * 2 ^ (e - low).toNat

section Finite

variable {m n : Nat} {e f : Int} {a : 0 < m} {b : 0 < n}

private theorem le_target_of_units_le {sign : Sign} {low : Int} {total : Nat}
    (canonical : Canonical (.finite sign m e a))
    (below : low ≤ e) (part : units m e low ≤ total) : e ≤ target total low := by
  obtain ⟨-, least, normal⟩ := canonical
  rcases normal with rfl | many
  · exact le_max_right _ _
  · have large : 2 ^ (52 + (e - low).toNat) ≤ total := by
      rw [Nat.pow_add]
      exact (Nat.mul_le_mul_right _ many).trans part
    have bits : 52 + (e - low).toNat ≤ total.log2 :=
      (Nat.le_log2 (Nat.ne_of_gt ((Nat.two_pow_pos _).trans_le large))).mpr large
    rw [target]
    omega

theorem normalize_natCast {total : Nat} (positive : 0 < total) (low : Int) (zero : Sign) :
    UnpackedFloat.normalize format total low zero = UnpackedFloat.round format .positive total low := by
  unfold UnpackedFloat.normalize
  rw [compare_gt_iff_gt.mpr (Int.natCast_pos.mpr positive)]
  rfl

theorem units_pos (a : 0 < m) (e low : Int) : 0 < units m e low := Nat.mul_pos a (Nat.two_pow_pos _)

/-- A sum is rounded in units of its finer part. -/
theorem add_finite (s t : Sign) (m n : Nat) (e f : Int) (a : 0 < m) (b : 0 < n) :
    UnpackedFloat.add format (.finite s m e a) (.finite t n f b) =
      UnpackedFloat.normalize format (s.apply (units m e (min e f)) + t.apply (units n f (min e f)))
        (min e f) .positive := by
  simp only [units, ← Nat.shiftLeft_eq]
  rfl

private theorem add_positive (m n : Nat) (e f : Int) (a : 0 < m) (b : 0 < n) :
    UnpackedFloat.add format (.finite .positive m e a) (.finite .positive n f b) =
      UnpackedFloat.round format .positive (units m e (min e f) + units n f (min e f)) (min e f) := by
  rw [add_finite, Sign.apply, Sign.apply, ← Nat.cast_add,
    normalize_natCast (Nat.add_pos_left (units_pos a e _) _)]

private theorem le_round {low : Int} {total : Nat} (canonical : Canonical (.finite .positive m e a))
    (below : low ≤ e)
    (least : -1074 ≤ low) (fine : low = -1074 ∨ 2 ^ 52 ≤ total) (part : units m e low ≤ total) :
    ∃ k g h, UnpackedFloat.round format .positive total low = .finite .positive k g h ∧
      Canonical (.finite .positive k g h) ∧ (e < g ∨ e = g ∧ m ≤ k) := by
  have positive : 0 < total := (units_pos a e low).trans_le part
  -- What is cut off lies below the last bit of the part, so that cutting off leaves the part whole.
  have reached := le_target_of_units_le canonical below part
  obtain ⟨k, g, h, rounded, result, near⟩ := exists_roundWithAccuracy .positive .exact positive least fine
  refine ⟨k, g, h, ?_, result, ?_⟩
  · rw [round_eq .positive (le_target positive fine), rounded]
  · rcases near with beyond | ⟨rfl, near⟩
    · exact .inl (reached.trans_lt beyond)
    · rcases reached.lt_or_eq with before | same
      · exact .inl before
      · have cut : m ≤ total / 2 ^ (target total low - low).toNat := by
          rw [← same]
          exact (Nat.le_div_iff_mul_le (Nat.two_pow_pos _)).mpr part
        exact .inr ⟨same, cut.trans near⟩

private theorem le_units (m : Nat) (e low : Int) :
    m ≤ units m e low := Nat.le_mul_of_pos_right m (Nat.two_pow_pos _)

private theorem exists_add (first : Canonical (.finite .positive m e a))
    (second : Canonical (.finite .positive n f b)) :
    ∃ k g h, UnpackedFloat.add format (.finite .positive m e a) (.finite .positive n f b) =
        .finite .positive k g h ∧
      Canonical (.finite .positive k g h) ∧ (e < g ∨ e = g ∧ m ≤ k) ∧ (f < g ∨ f = g ∧ n ≤ k) := by
  let low := min e f
  let total := units m e low + units n f low
  have least : -1074 ≤ low := le_min first.2.1 second.2.1
  have left : units m e low ≤ total := Nat.le_add_right _ _
  have right : units n f low ≤ total := Nat.le_add_left _ _
  -- The finer part is subnormal or has 53 bits, so that the total is never stretched to fit.
  have fine : low = -1074 ∨ 2 ^ 52 ≤ total := by
    rcases min_choice e f with same | same
    · exact first.2.2.imp same.trans fun many => many.trans ((le_units m e low).trans left)
    · exact second.2.2.imp same.trans fun many => many.trans ((le_units n f low).trans right)
  obtain ⟨k, g, h, rounded, canonical, above⟩ := le_round first (min_le_left e f) least fine left
  obtain ⟨k', g', h', again, -, other⟩ := le_round second (min_le_right e f) least fine right
  cases rounded.symm.trans again
  exact ⟨k, g, h, by rw [add_positive, rounded], canonical, above, other⟩

end Finite

private theorem add_nonNegative {v w : UnpackedFloat} (first : Canonical v) (second : Canonical w)
    (left : NonNegative v) (right : NonNegative w) :
    Canonical (UnpackedFloat.add format v w) ∧ Below v (UnpackedFloat.add format v w) ∧
      Below w (UnpackedFloat.add format v w) := by
  cases left with
  | zero s =>
    cases right with
    | zero t =>
      have zero : ∃ u, UnpackedFloat.add format (.zero s) (.zero t) = .zero u := by
        cases s <;> cases t <;> exact ⟨_, rfl⟩
      obtain ⟨u, same⟩ := zero
      rw [same]
      exact ⟨trivial, (NonNegative.zero u).above s, (NonNegative.zero u).above t⟩
    | finite n f b => exact ⟨second, (NonNegative.finite n f b).above s, (NonNegative.finite n f b).refl⟩
    | infinity => exact ⟨second, NonNegative.infinity.above s, NonNegative.infinity.refl⟩
  | finite m e a =>
    cases right with
    | zero t => exact ⟨first, (NonNegative.finite m e a).refl, (NonNegative.finite m e a).above t⟩
    | finite n f b =>
      obtain ⟨k, g, h, sum, canonical, above, other⟩ := exists_add first second
      rw [sum]
      exact ⟨canonical, below_finite above, below_finite other⟩
    | infinity => exact ⟨trivial, (NonNegative.finite m e a).below_infinity, NonNegative.infinity.refl⟩
  | infinity =>
    have sum : UnpackedFloat.add format (.infinity .positive) w = .infinity .positive := by
      cases right <;> rfl
    rw [sum]
    exact ⟨trivial, NonNegative.infinity.refl, right.below_infinity⟩

private theorem NonNegative.overflow {w : UnpackedFloat} (nonNegative : NonNegative w) :
    NonNegative (overflow w) ∧ Below w (overflow w) := by
  cases nonNegative with
  | zero s => exact ⟨.zero s, (NonNegative.zero s).refl⟩
  | finite m e a =>
    rw [Binary64.overflow]
    split
    · exact ⟨.infinity, (NonNegative.finite m e a).below_infinity⟩
    · exact ⟨.finite m e a, (NonNegative.finite m e a).refl⟩
  | infinity => exact ⟨.infinity, NonNegative.infinity.refl⟩

variable {x y : Float}

theorem le_add (left : 0 ≤ x) (right : 0 ≤ y) : x ≤ x + y ∧ y ≤ x + y := by
  have left := zero_le_iff.mp left
  have right := zero_le_iff.mp right
  obtain ⟨canonical, first, second⟩ := add_nonNegative (canonical_unpack _) (canonical_unpack _) left right
  have sum : (x + y).toModel.unpack =
      overflow (UnpackedFloat.add format x.toModel.unpack y.toModel.unpack) := unpack_pack canonical
  have above := (left.of_below first).overflow.2
  rw [le_iff, le_iff, sum]
  exact ⟨first.trans above, second.trans above⟩

private theorem isNaN_iff_unpack : x.isNaN = true ↔ x.toModel.unpack = .notANumber := UnpackedFloat.isNaN_iff

theorem isNaN_add (number : (x + y).isNaN = false) : x.isNaN = false ∧ y.isNaN = false := by
  have sum : (x + y).toModel.unpack = UnpackedFloat.unpack format (UnpackedFloat.pack format
      (UnpackedFloat.add format x.toModel.unpack y.toModel.unpack)) := rfl
  rw [← Bool.not_eq_true, isNaN_iff_unpack, sum] at number
  constructor <;> rw [← Bool.not_eq_true, isNaN_iff_unpack] <;> intro other <;> apply number
  · rw [other]
    exact unpack_packedNaN
  · rw [other]
    cases x.toModel.unpack <;> exact unpack_packedNaN

end PlaneSketch.Binary64
