import PlaneSketch.Proofs.Binary64.Bits

/-! Doubles in canonical form. A double that is unpacked is canonical, and a canonical number is kept
when it is packed, unless it is too large. -/
namespace PlaneSketch.Binary64

open Float.Model UnpackedFloat

/-- A finite number has no more than 53 bits, and fewer only with the least exponent. -/
def Canonical : UnpackedFloat → Prop
  | .finite _ m e _ => m < 2 ^ 53 ∧ -1074 ≤ e ∧ (e = -1074 ∨ 2 ^ 52 ≤ m)
  | _ => True

theorem toNat_one_append (mantissa : BitVec 52) :
    (1#1 ++ mantissa).toNat = 2 ^ 52 + mantissa.toNat := by
  rw [BitVec.toNat_append, ← Nat.shiftLeft_add_eq_or_of_lt mantissa.isLt]
  rfl

theorem canonical_unpack (b : BitVec format.numBits) : Canonical (unpack format b) := by
  rw [UnpackedFloat.unpack]
  split
  case isTrue => split <;> trivial
  case isFalse =>
    split
    case isTrue zero =>
      split
      case isTrue => trivial
      case isFalse part =>
        refine ⟨Nat.lt_trans (unpackMantissa b).isLt (by decide), ?_, .inl ?_⟩
        · rw [zero]
          decide
        · rw [zero]
          rfl
    case isFalse inside =>
      have total : (1#1 ++ unpackMantissa b).toNat = 2 ^ 52 + (unpackMantissa b).toNat := toNat_one_append _
      have small : (unpackMantissa b).toNat < 2 ^ 52 := (unpackMantissa b).isLt
      have positive : (unpackExponent b).toNat ≠ 0 := fun same => inside (BitVec.eq_of_toNat_eq same)
      refine ⟨?_, ?_, .inr ?_⟩
      · omega
      · change -1074 ≤ ((unpackExponent b).toNat : Int) - 1075
        omega
      · omega

def overflow : UnpackedFloat → UnpackedFloat
  | .finite sign m e positive => if 971 < e then .infinity sign else .finite sign m e positive
  | x => x

section Components

variable (sign : Sign) {exponent : BitVec 11} {mantissa : BitVec 52}

theorem unpack_packedInfinity :
    UnpackedFloat.unpack format (packedInfinity format sign) = .infinity sign := by
  simp only [UnpackedFloat.unpack, packedInfinity, unpackSign_packComponents, unpackExponent_packComponents,
    unpackMantissa_packComponents, Sign.ofBitVec_toBitVec]
  rfl

private theorem unpack_subnormal (positive : 0 < mantissa.toNat) :
    UnpackedFloat.unpack format (packComponents format sign 0#11 mantissa) =
      .finite sign mantissa.toNat (-1074) positive := by
  have part : mantissa ≠ 0#52 := fun same => by simp [same] at positive
  simp only [UnpackedFloat.unpack, unpackSign_packComponents, unpackExponent_packComponents,
    unpackMantissa_packComponents, Sign.ofBitVec_toBitVec]
  rw [if_neg (by decide), if_pos trivial, dif_neg part]
  rfl

private theorem unpack_normal (first : exponent ≠ 0#11) (last : exponent ≠ -1#11)
    (positive : 0 < (1#1 ++ mantissa).toNat) :
    UnpackedFloat.unpack format (packComponents format sign exponent mantissa) =
      .finite sign (1#1 ++ mantissa).toNat (exponent.toNat - 1075) positive := by
  simp only [UnpackedFloat.unpack, unpackSign_packComponents, unpackExponent_packComponents,
    unpackMantissa_packComponents, Sign.ofBitVec_toBitVec]
  rw [if_neg last, if_neg first]
  rfl

end Components

private theorem finite_congr {sign : Sign} {m n : Nat} {e f : Int} {positive : 0 < m} (mantissa : n = m)
    (exponent : f = e) :
    UnpackedFloat.finite sign n f (mantissa ▸ positive) = .finite sign m e positive := by
  subst mantissa exponent
  rfl

private theorem log2_add_one {m : Nat} (few : m < 2 ^ 53) (positive : 0 < m) :
    m.log2 + 1 = format.mantissaBits ↔ 2 ^ 52 ≤ m := by
  change m.log2 + 1 = 53 ↔ _
  rw [← Nat.le_log2 (Nat.ne_of_gt positive)]
  have bound : m.log2 < 53 := (Nat.log2_lt (Nat.ne_of_gt positive)).mpr few
  omega

theorem unpack_pack {w : UnpackedFloat} (canonical : Canonical w) :
    UnpackedFloat.unpack format (UnpackedFloat.pack format w) = overflow w := by
  cases w with
  | notANumber => exact unpack_packedNaN
  | infinity sign => exact unpack_packedInfinity sign
  | zero sign => exact unpack_packedZero
  | finite sign m e positive =>
    obtain ⟨few, low, least⟩ := canonical
    let biased := (e + 1075).toNat
    have exponent : (e + format.exponentBias + format.mantissaBitsWithoutImplicit).toNat = biased := by
      change (e + 1023 + 52).toNat = (e + 1075).toNat
      omega
    rw [UnpackedFloat.pack, overflow]
    simp only [exponent, log2_add_one few positive]
    by_cases large : 971 < e
    · have beyond : 2 ^ format.exponentBits ≤ biased + 1 := by
        change 2048 ≤ (e + 1075).toNat + 1
        omega
      rw [if_pos large, if_pos beyond]
      exact unpack_packedInfinity sign
    · have inside : ¬2 ^ format.exponentBits ≤ biased + 1 := by
        change ¬2048 ≤ (e + 1075).toNat + 1
        omega
      rw [if_neg large, if_neg inside]
      by_cases many : 2 ^ 52 ≤ m
      · have place : (BitVec.ofNat 11 biased).toNat = biased := Nat.mod_eq_of_lt (by omega)
        have mantissa : (1#1 ++ BitVec.ofNat 52 m).toNat = m := by
          rw [toNat_one_append, BitVec.toNat_ofNat]
          omega
        rw [if_pos many, unpack_normal]
        · exact finite_congr mantissa (by rw [place]; omega)
        · intro first
          have zero : biased = 0 := place.symm.trans (congrArg BitVec.toNat first)
          omega
        · intro last
          have greatest : biased = 2047 := place.symm.trans (congrArg BitVec.toNat last)
          omega
      · have mantissa : (BitVec.ofNat 52 m).toNat = m := Nat.mod_eq_of_lt (by omega)
        rw [if_neg many, unpack_subnormal sign (mantissa.symm ▸ positive)]
        exact finite_congr mantissa (by omega)

end PlaneSketch.Binary64
