import PlaneSketch.Proofs.Binary64.Value

/-! The operations on doubles as exact operations that are rounded. -/
namespace PlaneSketch.Binary64

open Float.Model UnpackedFloat

section Unpacked

variable {v w : UnpackedFloat}

theorem closest_zero (s : Sign) : Closest 0 (.zero s) := closest_value (w := .zero s) trivial rfl

private theorem closest_add (first : Canonical v) (second : Canonical w) (left : v.isFinite = true)
    (right : w.isFinite = true) : Closest (value v + value w) (UnpackedFloat.add format v w) := by
  cases v with
  | infinity | notANumber => cases left
  | zero s =>
    rw [show value (.zero s) = 0 from rfl, zero_add]
    cases w with
    | infinity | notANumber => cases right
    | zero t =>
      rw [show value (.zero t) = 0 from rfl]
      cases s <;> cases t <;> exact closest_zero _
    | finite t n f b => exact closest_value second right
  | finite s m e a =>
    cases w with
    | infinity | notANumber => cases right
    | zero t =>
      rw [show value (.zero t) = 0 from rfl, add_zero]
      exact closest_value first left
    | finite t n f b =>
      rw [add_finite, value, value, ← cast_apply_units s (min_le_left e f),
        ← cast_apply_units t (min_le_right e f), ← add_mul, ← Int.cast_add]
      exact closest_normalize ..

private theorem closest_sub (first : Canonical v) (second : Canonical w) (left : v.isFinite = true)
    (right : w.isFinite = true) : Closest (value v - value w) (UnpackedFloat.sub format v w) := by
  cases v with
  | infinity | notANumber => cases left
  | zero s =>
    rw [show value (.zero s) = 0 from rfl, zero_sub]
    cases w with
    | infinity | notANumber => cases right
    | zero t =>
      rw [show value (.zero t) = 0 from rfl, neg_zero]
      cases s <;> cases t <;> exact closest_zero _
    | finite t n f b =>
      have mirrored : -value (.finite t n f b) = value (.finite (-t) n f b) := by
        cases t with
        | positive =>
          change -(((n : ℤ) : ℚ) * 2 ^ f) = ((-(n : ℤ) : ℤ) : ℚ) * 2 ^ f
          push_cast
          ring
        | negative =>
          change -(((-(n : ℤ) : ℤ) : ℚ) * 2 ^ f) = ((n : ℤ) : ℚ) * 2 ^ f
          push_cast
          ring
      rw [mirrored]
      exact closest_value second rfl
  | finite s m e a =>
    cases w with
    | infinity | notANumber => cases right
    | zero t =>
      rw [show value (.zero t) = 0 from rfl, sub_zero]
      exact closest_value first left
    | finite t n f b =>
      rw [sub_finite, value, value, ← cast_apply_units s (min_le_left e f),
        ← cast_apply_units t (min_le_right e f), ← sub_mul, ← Int.cast_sub]
      exact closest_normalize ..

private theorem le_target_mul {s t : Sign} {m n : Nat} {e f : Int} {a : 0 < m} {b : 0 < n}
    (first : Canonical (.finite s m e a)) (second : Canonical (.finite t n f b)) :
    e + f ≤ target (m * n) (e + f) := by
  have long (many : 2 ^ 52 ≤ m * n) : e + f ≤ target (m * n) (e + f) :=
    le_target (Nat.mul_pos a b) (.inr many)
  rcases first.2.2 with rfl | many
  · rcases second.2.2 with rfl | many
    · exact le_max_of_le_right (by decide)
    · exact long (many.trans (Nat.le_mul_of_pos_left n a))
  · exact long (many.trans (Nat.le_mul_of_pos_right m b))

private theorem cast_apply_mul (s t : Sign) (m n : Nat) :
    (((s * t).apply (m * n : Nat) : ℤ) : ℚ) = (s.apply m : ℤ) * (t.apply n : ℤ) := by
  rw [← Int.cast_mul]
  congr 1
  cases s with
  | positive =>
    cases t with
    | positive => exact Int.natCast_mul m n
    | negative => exact (congrArg Neg.neg (Int.natCast_mul m n)).trans (Int.mul_neg _ _).symm
  | negative =>
    cases t with
    | positive => exact (congrArg Neg.neg (Int.natCast_mul m n)).trans (Int.neg_mul _ _).symm
    | negative => exact (Int.natCast_mul m n).trans (Int.neg_mul_neg _ _).symm

private theorem closest_mul (first : Canonical v) (second : Canonical w) (left : v.isFinite = true)
    (right : w.isFinite = true) : Closest (value v * value w) (UnpackedFloat.mul format v w) := by
  cases v with
  | infinity | notANumber => cases left
  | zero s =>
    rw [show value (.zero s) = 0 from rfl, zero_mul]
    cases w with
    | infinity | notANumber => cases right
    | zero t | finite t => exact closest_zero (s * t)
  | finite s m e a =>
    cases w with
    | infinity | notANumber => cases right
    | zero t =>
      rw [show value (.zero t) = 0 from rfl, mul_zero]
      exact closest_zero (s * t)
    | finite t n f b =>
      have product : value (.finite s m e a) * value (.finite t n f b) =
          ((s * t).apply (m * n : Nat) : ℤ) * 2 ^ (e + f) := by
        rw [value, value, cast_apply_mul, zpow_add₀ (by norm_num)]
        ring
      rw [product]
      exact closest_roundWithAccuracy (s * t) (Nat.mul_pos a b) (le_target_mul first second)

def one : UnpackedFloat := .finite .positive (2 ^ 52) (-52) (by decide)

private theorem closest_div_one (canonical : Canonical v) (finite : v.isFinite = true) :
    Closest (value v) (UnpackedFloat.div format v one) := by
  cases v with
  | infinity | notANumber => cases finite
  | zero s => exact closest_zero _
  | finite s m e a =>
    obtain ⟨few, low, -⟩ := canonical
    have bits : m.log2 < 53 := (Nat.log2_lt (Nat.ne_of_gt a)).mpr few
    let place : Int := min (e + 52) (max ((m.log2 : Int) + e - 53) (-1074))
    -- The quotient is taken so fine that nothing remains.
    have deep : place ≤ e := by
      simp only [place]
      omega
    have exact_quotient : m <<< (e + 52 - place).toNat = units m e place * 2 ^ 52 := by
      have parts : (e + 52 - place).toNat = (e - place).toNat + 52 := by omega
      rw [Nat.shiftLeft_eq, parts, Nat.pow_add, ← Nat.mul_assoc, units]
    have core : divCore format m e (2 ^ 52) (-52) = (units m e place, place, .exact) := by
      have target_eq : min (e - -52) (format.targetExponent
          (totalExponent m e - totalExponent (2 ^ 52) (-52))) = place := by
        change min (e - -52) (max ((m.log2 : Int) + 1 + e - 1 - 53) (-1074)) = place
        simp only [place]
        omega
      rw [divCore, target_eq, show e - -52 - place = e + 52 - place by omega, exact_quotient]
      simp [accuracyOfFraction]
    have fine : place ≤ target (units m e place) place := by
      rw [target, units, log2_mul_two_pow a]
      simp only [place] at deep ⊢
      omega
    have result : UnpackedFloat.div format (.finite s m e a) one =
        roundWithAccuracy format s (units m e place) place .exact := by
      have sign : s / .positive = s := by cases s <;> rfl
      change roundWithAccuracy format (s / .positive) (divCore format m e (2 ^ 52) (-52)).1
        (divCore format m e (2 ^ 52) (-52)).2.1 (divCore format m e (2 ^ 52) (-52)).2.2 = _
      rw [core, sign]
    rw [result, value, ← cast_apply_units s deep]
    exact closest_roundWithAccuracy s (units_pos a e place) fine

end Unpacked

section Overflow

private theorem overflow_unpack (b : BitVec format.numBits) :
    overflow (UnpackedFloat.unpack format b) = UnpackedFloat.unpack format b := by
  rw [UnpackedFloat.unpack]
  split
  case isTrue => split <;> rfl
  case isFalse notLast =>
    have last : (unpackExponent b).toNat ≠ 2047 := fun same => notLast (BitVec.eq_of_toNat_eq same)
    have bound : (unpackExponent b).toNat < 2048 := (unpackExponent b).isLt
    split
    case isTrue least =>
      split
      case isTrue => rfl
      case isFalse =>
        refine if_neg ?_
        rw [least]
        decide
    case isFalse =>
      refine if_neg ?_
      change ¬971 < ((unpackExponent b).toNat : Int) - 1075
      omega

theorem abs_value_finite (s : Sign) {m : Nat} (e : Int) (a : 0 < m) :
    |value (.finite s m e a)| = m * 2 ^ e := by
  have size : |((s.apply m : ℤ) : ℚ)| = m := by cases s <;> simp [Sign.apply]
  rw [value, abs_mul, size, abs_of_pos (show (0 : ℚ) < 2 ^ e by positivity)]

private theorem abs_value_lt {w : UnpackedFloat} (canonical : Canonical w) (kept : overflow w = w) :
    |value w| < 2 ^ (1024 : ℤ) := by
  cases w with
  | finite s m e a =>
    have inside : e ≤ 971 := by
      by_contra beyond
      rw [overflow, if_pos (by omega)] at kept
      cases kept
    have few : (m : ℚ) < 2 ^ 53 := by exact_mod_cast canonical.1
    rw [abs_value_finite]
    calc (m : ℚ) * 2 ^ e < 2 ^ 53 * 2 ^ e := by gcongr
      _ ≤ 2 ^ 53 * 2 ^ (971 : ℤ) := by
        gcongr
        norm_num
      _ = 2 ^ (1024 : ℤ) := by
        rw [← zpow_natCast, ← zpow_add₀ (by norm_num)]
        rfl
  | _ => simp [value]

private theorem le_abs_value {w : UnpackedFloat} (canonical : Canonical w) (finite : w.isFinite = true)
    (lost : (overflow w).isFinite = false) : 2 ^ (1024 : ℤ) ≤ |value w| := by
  cases w with
  | finite s m e a =>
    have beyond : 971 < e := by
      by_contra inside
      rw [overflow, if_neg inside] at lost
      cases lost
    have many : (2 : ℚ) ^ 52 ≤ m := by exact_mod_cast canonical.2.2.resolve_left (by omega)
    rw [abs_value_finite]
    calc (2 : ℚ) ^ (1024 : ℤ) = 2 ^ 52 * 2 ^ (972 : ℤ) := by
          rw [← zpow_natCast, ← zpow_add₀ (by norm_num)]
          rfl
      _ ≤ 2 ^ 52 * 2 ^ e := by
        gcongr
        · norm_num
        · omega
      _ ≤ m * 2 ^ e := by gcongr
  | zero => cases lost
  | _ => cases finite

end Overflow

section Doubles

def toRat (x : Float) : ℚ := value x.toModel.unpack

/-- The double is what `q` is rounded to, or an infinity if that is out of range. -/
def RoundsTo (q : ℚ) (x : Float) : Prop := ∃ w, Closest q w ∧ x.toModel.unpack = overflow w

theorem representable_toRat (x : Float) : Representable (toRat x) := representable_value (canonical_unpack _)

private theorem abs_toRat_lt (x : Float) : |toRat x| < 2 ^ (1024 : ℤ) :=
  abs_value_lt (canonical_unpack _) (overflow_unpack _)

variable {q : ℚ} {x y z : Float}

theorem RoundsTo.closest (rounds : RoundsTo q x) (finite : x.isFinite = true) :
    Closest q x.toModel.unpack := by
  obtain ⟨w, closest, same⟩ := rounds
  have kept : (overflow w).isFinite = true := same ▸ finite
  have whole : overflow w = w := by
    cases w with
    | finite s m e a =>
      rw [overflow] at kept ⊢
      split at kept
      · cases kept
      · rw [if_neg (by assumption)]
    | _ => rfl
  rw [same, whole]
  exact closest

theorem RoundsTo.isFinite (rounds : RoundsTo q x) (above : toRat y ≤ q) (below : q ≤ toRat z) :
    x.isFinite = true := by
  obtain ⟨w, closest, same⟩ := rounds
  change x.toModel.unpack.isFinite = true
  rw [same]
  by_contra lost
  have large := le_abs_value closest.canonical closest.finite (Bool.not_eq_true _ ▸ lost)
  have low := closest.nearest.ge (representable_toRat y) above
  have high := closest.nearest.le (representable_toRat z) below
  have inside : |value w| < 2 ^ (1024 : ℤ) :=
    abs_lt.mpr ⟨(abs_lt.mp (abs_toRat_lt y)).1.trans_le low, high.trans_lt (abs_lt.mp (abs_toRat_lt z)).2⟩
  exact absurd large (not_le_of_gt inside)

theorem RoundsTo.isFinite_of_mem_uIcc (rounds : RoundsTo q x) (between : q ∈ Set.uIcc (toRat y) (toRat z)) :
    x.isFinite = true :=
  (Set.mem_uIcc.mp between).elim (fun ⟨low, high⟩ => rounds.isFinite low high)
    fun ⟨low, high⟩ => rounds.isFinite low high

theorem rounds_add (left : x.isFinite = true) (right : y.isFinite = true) :
    RoundsTo (toRat x + toRat y) (x + y) := by
  have closest := closest_add (canonical_unpack _) (canonical_unpack _) left right
  exact ⟨_, closest, unpack_pack closest.canonical⟩

theorem rounds_sub (left : x.isFinite = true) (right : y.isFinite = true) :
    RoundsTo (toRat x - toRat y) (x - y) := by
  have closest := closest_sub (canonical_unpack _) (canonical_unpack _) left right
  exact ⟨_, closest, unpack_pack closest.canonical⟩

theorem rounds_mul (left : x.isFinite = true) (right : y.isFinite = true) :
    RoundsTo (toRat x * toRat y) (x * y) := by
  have closest := closest_mul (canonical_unpack _) (canonical_unpack _) left right
  exact ⟨_, closest, unpack_pack closest.canonical⟩

private theorem unpack_one : (Scalar.ofNat 1 : Float).toModel.unpack = one := by
  rfl

theorem rounds_div_one (finite : x.isFinite = true) : RoundsTo (toRat x) (x / Scalar.ofNat 1) := by
  have closest := closest_div_one (canonical_unpack _) finite
  rw [← unpack_one] at closest
  exact ⟨_, closest, unpack_pack closest.canonical⟩

end Doubles

end PlaneSketch.Binary64
