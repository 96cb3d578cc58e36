import PlaneSketch.Proofs.Binary64.Canonical

/-! Rounding to doubles. A positive number that is at least as fine as its double goes to a canonical
number whose mantissa is no less than its own, cut off at the exponent of the double. -/
namespace PlaneSketch.Binary64

open Float.Model UnpackedFloat

/-- The exponent of the double nearest to `m * 2 ^ e`, except that rounding up may raise it by one. -/
def target (m : Nat) (e : Int) : Int := max (m.log2 + 1 + e - 53) (-1074)

theorem targetExponent_eq (m : Nat) (e : Int) : format.targetExponent (totalExponent m e) = target m e :=
  rfl

theorem mantissa_shiftRight (em : ExtendedMantissa) (n : Nat) : (em >>> n).mantissa = em.mantissa / 2 ^ n := by
  change (n.repeat ExtendedMantissa.shiftRightOne em).mantissa = _
  induction n with
  | zero => simp [Nat.repeat]
  | succ n ih =>
    change (n.repeat ExtendedMantissa.shiftRightOne em).mantissa / 2 = _
    rw [ih, Nat.div_div_eq_div_mul, ← Nat.pow_succ]

private theorem le_roundedMantissa (em : ExtendedMantissa) :
    em.mantissa ≤ em.roundedMantissa ∧ em.roundedMantissa ≤ em.mantissa + 1 := by
  obtain ⟨m, round, sticky⟩ := em
  cases round <;> cases sticky <;>
    simp [ExtendedMantissa.roundedMantissa, ExtendedMantissa.accuracy, Accuracy.roundToNearestEven]
  omega

theorem mantissa_ofMantissaAndAccuracy (m : Nat) (accuracy : Accuracy) :
    (ExtendedMantissa.ofMantissaAndAccuracy m accuracy).mantissa = m := by
  rcases accuracy with _ | (_ | _ | _) <;> rfl

section Quotient

variable {m : Nat} {e : Int}

theorem le_target (positive : 0 < m) (least : e = -1074 ∨ 2 ^ 52 ≤ m) : e ≤ target m e := by
  rw [target]
  rcases least with same | many
  · omega
  · have bits : 52 ≤ m.log2 := (Nat.le_log2 (Nat.ne_of_gt positive)).mpr many
    omega

/-- Cut off at its target exponent, a number has no more than 53 bits, and fewer only with the least
exponent. -/
theorem quotient_bounds (positive : 0 < m) (fine : e ≤ target m e) :
    m / 2 ^ (target m e - e).toNat < 2 ^ 53 ∧
      (target m e = -1074 ∨ 2 ^ 52 ≤ m / 2 ^ (target m e - e).toNat) := by
  have below : m < 2 ^ (m.log2 + 1) := Nat.lt_log2_self
  obtain ⟨k, shift⟩ := Int.eq_ofNat_of_zero_le (Int.sub_nonneg_of_le fine)
  have large : m.log2 + 1 ≤ 53 + k := by
    rw [target] at shift
    omega
  rw [shift, Int.toNat_natCast, Nat.div_lt_iff_lt_mul (Nat.two_pow_pos k), ← Nat.pow_add,
    Nat.le_div_iff_mul_le (Nat.two_pow_pos k), ← Nat.pow_add]
  refine ⟨below.trans_le (Nat.pow_le_pow_right (by decide) large), ?_⟩
  by_cases least : target m e = -1074
  · exact .inl least
  · have bits : 52 + k = m.log2 := by
      rw [target] at shift least
      omega
    rw [bits]
    exact .inr (Nat.log2_self_le (Nat.ne_of_gt positive))

end Quotient

private theorem target_rounded {r : Nat} {t : Int} (bound : r ≤ 2 ^ 53) (low : -1074 ≤ t) :
    (r < 2 ^ 53 ∧ (target r t - t).toNat = 0) ∨ (r = 2 ^ 53 ∧ (target r t - t).toNat = 1) := by
  rcases Nat.lt_or_eq_of_le bound with few | rfl
  · have bits : r.log2 < 53 := by
      rcases Nat.eq_zero_or_pos r with rfl | positive
      · decide
      · exact (Nat.log2_lt (Nat.ne_of_gt positive)).mpr few
    refine .inl ⟨few, ?_⟩
    rw [target]
    omega
  · refine .inr ⟨rfl, ?_⟩
    rw [target, Nat.log2_two_pow]
    omega

section Rounded

variable {m : Nat} {e : Int}

def rounded (m : Nat) (e : Int) (accuracy : Accuracy) : Nat :=
  (ExtendedMantissa.ofMantissaAndAccuracy m accuracy >>> (target m e - e).toNat).roundedMantissa

theorem le_rounded (m : Nat) (e : Int) (accuracy : Accuracy) :
    m / 2 ^ (target m e - e).toNat ≤ rounded m e accuracy ∧
      rounded m e accuracy ≤ m / 2 ^ (target m e - e).toNat + 1 := by
  have near := le_roundedMantissa
    (ExtendedMantissa.ofMantissaAndAccuracy m accuracy >>> (target m e - e).toNat)
  rwa [mantissa_shiftRight, mantissa_ofMantissaAndAccuracy] at near

/-- Rounding ends with the rounded mantissa, unless that is nothing or a bit too long. -/
theorem roundWithAccuracy_cases (sign : Sign) (accuracy : Accuracy) (positive : 0 < m)
    (fine : e ≤ target m e) :
    (rounded m e accuracy = 0 ∧ roundWithAccuracy format sign m e accuracy = .zero sign) ∨
      (rounded m e accuracy < 2 ^ 53 ∧ ∃ h, roundWithAccuracy format sign m e accuracy =
        .finite sign (rounded m e accuracy) (target m e) h) ∨
      (rounded m e accuracy = 2 ^ 53 ∧ ∃ h, roundWithAccuracy format sign m e accuracy =
        .finite sign (2 ^ 52) (target m e + 1) h) := by
  let shift := (target m e - e).toNat
  let again := (target (rounded m e accuracy) (e + shift) - (e + shift)).toNat
  let final := (ExtendedMantissa.ofMantissaAndAccuracy (rounded m e accuracy) .exact >>> again).mantissa
  have result : roundWithAccuracy format sign m e accuracy =
      if h : final = 0 then .zero sign
      else .finite sign final (e + shift + again) (Nat.pos_of_ne_zero h) := rfl
  have cut : final = rounded m e accuracy / 2 ^ again :=
    (mantissa_shiftRight _ again).trans (by rw [mantissa_ofMantissaAndAccuracy])
  have exponent : e + shift = target m e := by omega
  obtain ⟨few, -⟩ := quotient_bounds positive fine
  have bound : rounded m e accuracy ≤ 2 ^ 53 := by
    have near := (le_rounded m e accuracy).2
    omega
  have above : -1074 ≤ e + shift := exponent ▸ le_max_right _ _
  rw [result]
  rcases target_rounded bound above with ⟨short, kept⟩ | ⟨long, carried⟩
  · have same : final = rounded m e accuracy := by
      rw [cut, show again = 0 from kept, Nat.pow_zero, Nat.div_one]
    have place : e + shift + again = target m e := by
      rw [show again = 0 from kept, exponent]
      exact add_zero _
    by_cases none : final = 0
    · exact .inl ⟨same.symm.trans none, dif_pos none⟩
    · refine .inr (.inl ⟨short, ?_⟩)
      rw [dif_neg none, ← same, ← place]
      exact ⟨_, rfl⟩
  · have half : final = 2 ^ 52 := by
      rw [cut, long, show again = 1 from carried]
      rfl
    have place : e + shift + again = target m e + 1 := by
      rw [show again = 1 from carried, exponent]
      rfl
    refine .inr (.inr ⟨long, ?_⟩)
    rw [dif_neg (by rw [half]; decide)]
    simp only [half, place]
    exact ⟨by decide, trivial⟩

theorem exists_roundWithAccuracy (sign : Sign) (accuracy : Accuracy) (positive : 0 < m)
    (low : -1074 ≤ e) (least : e = -1074 ∨ 2 ^ 52 ≤ m) :
    ∃ n f h, roundWithAccuracy format sign m e accuracy = .finite sign n f h ∧
      Canonical (.finite sign n f h) ∧
      (target m e < f ∨ target m e = f ∧ m / 2 ^ (target m e - e).toNat ≤ n) := by
  have fine := le_target positive least
  have above : -1074 ≤ target m e := le_max_right _ _
  obtain ⟨-, normal⟩ := quotient_bounds positive fine
  obtain ⟨near, -⟩ := le_rounded m e accuracy
  rcases roundWithAccuracy_cases sign accuracy positive fine with
    ⟨none, -⟩ | ⟨short, some, result⟩ | ⟨-, some, result⟩
  · -- Nothing is left only of a number below the least one, and then nothing is cut off.
    have whole : 0 < m / 2 ^ (target m e - e).toNat := by
      rcases normal with same | many
      · have kept : (target m e - e).toNat = 0 := by omega
        rwa [kept, Nat.pow_zero, Nat.div_one]
      · exact Nat.lt_of_lt_of_le (by decide) many
    omega
  · exact ⟨_, _, some, result, ⟨short, above, normal.imp_right fun many => many.trans near⟩, .inr ⟨rfl, near⟩⟩
  · refine ⟨_, _, some, result, ⟨by decide, ?_, .inr le_rfl⟩, .inl (Int.lt_succ _)⟩
    omega

end Rounded

end PlaneSketch.Binary64
