import PlaneSketch.Proofs.Binary64.Arithmetic

/-! Where arithmetic stays among the numbers. Rounding leaves them nowhere; only two infinities can, or an
infinity and a zero, or two zeros. -/
namespace PlaneSketch.Binary64

open Float.Model UnpackedFloat

section Unpacked

private theorem isNaN_unpack (sign : Sign) {exponent : BitVec 11} (inside : exponent ≠ -1#11)
    (mantissa : BitVec 52) :
    (UnpackedFloat.unpack format (packComponents format sign exponent mantissa)).isNaN = false := by
  simp only [UnpackedFloat.unpack, unpackSign_packComponents, unpackExponent_packComponents,
    unpackMantissa_packComponents, Sign.ofBitVec_toBitVec]
  rw [if_neg inside]
  split
  · split <;> rfl
  · rfl

theorem isNaN_pack {w : UnpackedFloat} (number : w.isNaN = false) :
    (UnpackedFloat.unpack format (UnpackedFloat.pack format w)).isNaN = false := by
  cases w with
  | notANumber => cases number
  | infinity sign =>
    rw [show UnpackedFloat.pack format (.infinity sign) = packedInfinity format sign from rfl,
      unpack_packedInfinity]
    rfl
  | zero sign => exact isNaN_unpack sign (by decide) 0
  | finite sign m e positive =>
    rw [UnpackedFloat.pack]
    split
    case isTrue =>
      rw [unpack_packedInfinity]
      rfl
    case isFalse small =>
      split
      · refine isNaN_unpack sign (fun last => small ?_) _
        have place := congrArg BitVec.toNat last
        rw [BitVec.toNat_ofNat] at place
        have fits := Nat.mod_le (e + format.exponentBias + format.mantissaBitsWithoutImplicit).toNat 2048
        change _ % 2048 = 2047 at place
        change 2048 ≤ _ + 1
        omega
      · exact isNaN_unpack sign (by decide) _

theorem isNaN_roundWithAccuracy (sign : Sign) (m : Nat) (e : Int) (accuracy : Accuracy) :
    (roundWithAccuracy format sign m e accuracy).isNaN = false := by
  unfold roundWithAccuracy
  simp only
  split <;> rfl

private theorem isNaN_normalize (total low : Int) (zero : Sign) :
    (UnpackedFloat.normalize format total low zero).isNaN = false := by
  unfold UnpackedFloat.normalize
  split
  · exact isNaN_roundWithAccuracy ..
  · rfl
  · exact isNaN_roundWithAccuracy ..

end Unpacked

section Doubles

variable {x y : Float}

theorem isNaN_of_isFinite (finite : x.isFinite = true) : x.isNaN = false := by
  change x.toModel.unpack.isFinite = true at finite
  change x.toModel.unpack.isNaN = false
  cases w : x.toModel.unpack with
  | notANumber => rw [w] at finite; cases finite
  | _ => rfl

theorem isNaN_add_of_isFinite (left : x.isNaN = false) (right : y.isNaN = false)
    (finite : x.isFinite = true ∨ y.isFinite = true) : (x + y).isNaN = false := by
  have unpacked (v w : UnpackedFloat) (left : v.isNaN = false) (right : w.isNaN = false)
      (finite : v.isFinite = true ∨ w.isFinite = true) : (UnpackedFloat.add format v w).isNaN = false := by
    cases v with
    | notANumber => cases left
    | infinity s =>
      cases w with
      | infinity t => simp [UnpackedFloat.isFinite] at finite
      | notANumber => cases right
      | _ => rfl
    | zero s =>
      cases w with
      | zero t => cases s <;> cases t <;> rfl
      | notANumber => cases right
      | _ => rfl
    | finite s m e a =>
      cases w with
      | finite t n f b => exact isNaN_normalize ..
      | notANumber => cases right
      | _ => rfl
  exact isNaN_pack (unpacked _ _ left right finite)

theorem isNaN_foldl_add {xs : List Float} (finite : ∀ x ∈ xs, x.isFinite = true) {start : Float}
    (number : start.isNaN = false) : (xs.foldl (· + ·) start).isNaN = false := by
  induction xs generalizing start with
  | nil => exact number
  | cons x xs ih =>
    obtain ⟨here, later⟩ := List.forall_mem_cons.mp finite
    exact ih later (isNaN_add_of_isFinite number (isNaN_of_isFinite here) (.inr here))

theorem exists_unpack_of_pos (positive : 0 < x) (finite : x.isFinite = true) :
    ∃ m e h, x.toModel.unpack = .finite .positive m e h := by
  change x.toModel.unpack.isFinite = true at finite
  obtain ⟨r, atZero, s, atX, low⟩ := lt_iff.mp positive
  have nonNegative := zero_le_iff.mp (Binary64.le_of_lt positive)
  cases atZero
  revert finite atX nonNegative
  generalize x.toModel.unpack = w
  intro finite atX nonNegative
  cases nonNegative with
  | zero =>
    cases atX
    exact absurd low (lt_irrefl _)
  | infinity => cases finite
  | finite m e h => exact ⟨m, e, h, rfl⟩

theorem isNaN_mul_of_pos (positive : 0 < x) (finite : x.isFinite = true) (number : y.isNaN = false) :
    (x * y).isNaN = false := by
  obtain ⟨m, e, h, unpacked⟩ := exists_unpack_of_pos positive finite
  change y.toModel.unpack.isNaN = false at number
  refine isNaN_pack (w := UnpackedFloat.mul format x.toModel.unpack y.toModel.unpack) ?_
  rw [unpacked]
  cases w : y.toModel.unpack with
  | notANumber =>
    rw [w] at number
    cases number
  | finite => exact isNaN_roundWithAccuracy ..
  | _ => rfl

theorem isNaN_div_of_pos (number : x.isNaN = false) (positive : 0 < y) (finite : y.isFinite = true) :
    (x / y).isNaN = false := by
  obtain ⟨m, e, h, unpacked⟩ := exists_unpack_of_pos positive finite
  change x.toModel.unpack.isNaN = false at number
  refine isNaN_pack (w := UnpackedFloat.div format x.toModel.unpack y.toModel.unpack) ?_
  rw [unpacked]
  cases w : x.toModel.unpack with
  | notANumber =>
    rw [w] at number
    cases number
  | finite => exact isNaN_roundWithAccuracy ..
  | _ => rfl

end Doubles

section Counts

def vast : Float := Float.ofBits 0x43F0000000000000

theorem toRat_vast : toRat vast = 2 ^ 64 := by
  have unpacked : vast.toModel.unpack = .finite .positive (2 ^ 52) 12 (by decide) := rfl
  rw [toRat, unpacked, value, Sign.apply]
  norm_num

variable {n : Nat}

private theorem rounds_toFloat (small : n < 2 ^ 64) : RoundsTo n n.toUInt64.toFloat := by
  have closest := closest_normalize n 0 .positive
  have same : n.toUInt64.toNat = n := Nat.mod_eq_of_lt small
  refine ⟨UnpackedFloat.normalize format n 0 .positive, ?_, ?_⟩
  · simpa using closest
  · have canonical := closest.canonical
    rw [← unpack_pack canonical]
    change UnpackedFloat.unpack format (UnpackedFloat.pack format (UnpackedFloat.normalize format n.toUInt64.toNat 0 .positive)) = _
    rw [same]

private theorem ofScientific_eq (some : n ≠ 0) : UnpackedFloat.ofScientific format n 0 =
    roundWithAccuracy format .positive (n * 2 ^ 53) (-53) .exact := by
  have large : ¬(0 : ℤ) > 2 ^ format.exponentBits := not_lt_of_ge (by positivity)
  have tame : ¬(0 : ℤ) < -((2 ^ format.exponentBits : ℤ) + (n.log2 : ℤ)) :=
    not_lt_of_ge (neg_nonpos.mpr (by positivity))
  have length : n <<< 53 * 10 ^ 0 = n * 2 ^ 53 := by rw [Nat.shiftLeft_eq, Nat.pow_zero, Nat.mul_one]
  rw [UnpackedFloat.ofScientific, dif_neg some, if_neg large, if_neg tame, if_pos le_rfl, ← length]
  rfl

private theorem rounds_ofNat (small : n < 2 ^ 64) : RoundsTo n (Float.ofNat n) := by
  change RoundsTo n (Float.ofScientific n false 0)
  rw [Float.ofScientific]
  split
  case isTrue few =>
    have unit : toRat (Float.ofBits 0x3FF0000000000000) = 1 := by
      have unpacked : (Float.ofBits 0x3FF0000000000000).toModel.unpack = one := rfl
      rw [toRat, unpacked, one, value, Sign.apply]
      norm_num
    have exact_count : Representable n :=
      ⟨n, 0, by rw [Nat.abs_cast]; exact_mod_cast few.1, by norm_num, by simp⟩
    have whole := rounds_toFloat small
    have finite : n.toUInt64.toFloat.isFinite = true := by
      refine whole.isFinite (y := 0) (z := vast) (Nat.cast_nonneg n) ?_
      rw [toRat_vast]
      exact_mod_cast small.le
    have same : toRat n.toUInt64.toFloat = n := (whole.closest finite).nearest.eq exact_count
    have product := rounds_mul finite (y := Float.ofBits 0x3FF0000000000000) (by decide +kernel)
    rwa [same, unit, mul_one] at product
  case isFalse many =>
    have some : n ≠ 0 := by
      rintro rfl
      exact many ⟨by decide, by decide⟩
    have positive : 0 < n * 2 ^ 53 := Nat.mul_pos (Nat.pos_of_ne_zero some) (Nat.two_pow_pos _)
    have result := ofScientific_eq some
    have fine : (-53 : ℤ) ≤ target (n * 2 ^ 53) (-53) := by
      rw [target, log2_mul_two_pow (Nat.pos_of_ne_zero some)]
      omega
    have closest := closest_roundWithAccuracy .positive positive fine
    have place : ((Sign.apply .positive ((n * 2 ^ 53 : Nat) : ℤ) : ℤ) : ℚ) * 2 ^ (-53 : ℤ) = n := by
      rw [Sign.apply]
      push_cast
      rw [mul_assoc]
      norm_num
    rw [place, ← result] at closest
    exact ⟨_, closest, unpack_pack closest.canonical⟩

private theorem pos_of_toRat {x : Float} (positive : 0 < toRat x) : 0 < x := by
  rw [toRat] at positive
  cases w : x.toModel.unpack with
  | finite s m e a =>
    cases s with
    | positive =>
      rw [lt_iff, w]
      exact ⟨_, rfl, _, rfl, Prod.Lex.toLex_lt_toLex.mpr (.inl (show (0 : ℤ) < 1 by decide))⟩
    | negative =>
      rw [w] at positive
      have below : value (.finite .negative m e a) ≤ 0 := by
        rw [value, Sign.apply]
        push_cast
        rw [neg_mul]
        exact neg_nonpos.mpr (by positivity)
      exact absurd positive (not_lt_of_ge below)
  | _ =>
    rw [w] at positive
    exact absurd positive (lt_irrefl 0)

theorem ofNat_pos (some : 0 < n) (small : n < 2 ^ 64) :
    0 < Float.ofNat n ∧ (Float.ofNat n).isFinite = true := by
  have rounds := rounds_ofNat small
  have finite : (Float.ofNat n).isFinite = true := by
    refine rounds.isFinite (y := 0) (z := vast) (Nat.cast_nonneg n) ?_
    rw [toRat_vast]
    exact_mod_cast small.le
  have unit : Representable 1 := ⟨1, 0, by norm_num, by norm_num, by simp⟩
  have above : (1 : ℚ) ≤ toRat (Float.ofNat n) :=
    (rounds.closest finite).nearest.ge unit (by exact_mod_cast some)
  exact ⟨pos_of_toRat (zero_lt_one.trans_le above), finite⟩

end Counts

end PlaneSketch.Binary64
