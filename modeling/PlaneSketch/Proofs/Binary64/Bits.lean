import PlaneSketch.Binary64
import Mathlib

/-! A double is its bits, and a finite one its sign and the number of its magnitude. -/
namespace PlaneSketch.Binary64

open Float.Model UnpackedFloat

abbrev format : Format := Format.binary64

private theorem isFinite_unpack (b : BitVec format.numBits) :
    (UnpackedFloat.unpack format b).isFinite = true ↔ unpackExponent b ≠ -1#11 := by
  rw [UnpackedFloat.unpack]
  split
  case isTrue last =>
    refine iff_of_false ?_ (not_not_intro last)
    split <;> exact Bool.false_ne_true
  case isFalse inside =>
    refine iff_of_true ?_ inside
    split
    · split <;> rfl
    · rfl

theorem isFinite_iff (x : Float) : x.isFinite = true ↔ magnitude x < infinity := by
  let b : BitVec format.numBits := x.toBits.toBitVec
  have exponent : (unpackExponent b).toNat = x.toBits.toNat / 2 ^ 52 % 2 ^ 11 := by
    simp [b, unpackExponent, Nat.shiftRight_eq_div_pow]
  have last : unpackExponent b ≠ -1#11 ↔
      x.toBits.toNat / 2 ^ 52 % 2 ^ 11 ≠ 2047 := by
    rw [← exponent, ne_eq, ne_eq, ← BitVec.toNat_inj]
    rfl
  change (UnpackedFloat.unpack format x.toBits.toBitVec).isFinite = true ↔ _
  rw [isFinite_unpack, last, magnitude, infinity]
  change _ ↔ x.toBits.toNat % 2 ^ 63 < 2047 * 2 ^ 52
  omega

theorem toFloat_magnitude {x : Float} (finite : x.isFinite = true) :
    toFloat (isNegative x) (magnitude x) = x := by
  have inside := (isFinite_iff x).mp finite
  have bound : x.toBits.toNat < 2 ^ 64 := x.toBits.toNat_lt
  have whole : (if isNegative x then twoTo 63 else 0) + magnitude x = x.toBits.toNat := by
    have parts : x.toBits.toNat / twoTo 63 * twoTo 63 + magnitude x = x.toBits.toNat :=
      Nat.div_add_mod' _ _
    have sign : x.toBits.toNat / twoTo 63 = 0 ∨ x.toBits.toNat / twoTo 63 = 1 := by
      change _ / 2 ^ 63 = 0 ∨ _ / 2 ^ 63 = 1
      omega
    rw [isNegative]
    rcases sign with same | same
    · rw [same] at parts ⊢
      simpa using parts
    · rw [same] at parts ⊢
      simpa using parts
  rw [toFloat, Nat.min_eq_left (Nat.le_of_lt inside), whole, UInt64.ofNat_toNat, Float.ofBits_toBits]

end PlaneSketch.Binary64
