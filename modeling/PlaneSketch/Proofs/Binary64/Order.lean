import PlaneSketch.Binary64
import Mathlib

/-! How doubles compare. Those that are numbers stand in a line, where the two zeros share a place;
what is not a number compares with nothing. -/
namespace PlaneSketch.Binary64

open Float.Model UnpackedFloat

section Unpacked

/-- Where a number stands among all numbers: by its sign and whether it is finite, then by its exponent,
then by its mantissa. -/
def rank : UnpackedFloat → Option (ℤ ×ₗ ℤ ×ₗ ℤ)
  | .notANumber => none
  | .infinity .negative => some (toLex (-2, toLex (0, 0)))
  | .finite .negative m e _ => some (toLex (-1, toLex (-e, -m)))
  | .zero _ => some (toLex (0, toLex (0, 0)))
  | .finite .positive m e _ => some (toLex (1, toLex (e, m)))
  | .infinity .positive => some (toLex (2, toLex (0, 0)))

private theorem compare_natCast (m n : Nat) : compare (m : ℤ) n = compare m n := by
  rcases lt_trichotomy m n with below | rfl | above
  · rw [compare_lt_iff_lt.mpr below, compare_lt_iff_lt.mpr (Int.ofNat_lt.mpr below)]
  · simp
  · rw [compare_gt_iff_gt.mpr above, compare_gt_iff_gt.mpr (Int.ofNat_lt.mpr above)]

private theorem compare_neg_neg (e f : ℤ) : compare (-e) (-f) = (compare e f).swap := by
  rw [← Std.OrientedCmp.eq_swap]
  rcases lt_trichotomy e f with below | rfl | above
  · rw [compare_gt_iff_gt.mpr below, compare_gt_iff_gt.mpr (neg_lt_neg below)]
  · simp
  · rw [compare_lt_iff_lt.mpr above, compare_lt_iff_lt.mpr (neg_lt_neg above)]

theorem compare_rank (a b : UnpackedFloat) :
    a.compare b = (rank a).bind fun r => (rank b).map (compare r) := by
  rcases a with (_ | _) | _ | _ | ⟨_ | _, m, e, _⟩ <;>
    rcases b with (_ | _) | _ | _ | ⟨_ | _, n, f, _⟩ <;> try rfl
  -- left are two finite numbers of one sign
  · change some _ = some ((compare (-e) (-f)).then (compare (-(m : ℤ)) (-(n : ℤ))))
    rw [Ordering.swap_then, compare_neg_neg, compare_neg_neg, compare_natCast]
  · change some _ = some ((compare e f).then (compare (m : ℤ) n))
    rw [compare_natCast]

def Below (a b : UnpackedFloat) : Prop := ∃ r ∈ rank a, ∃ s ∈ rank b, r ≤ s

theorem Below.trans {a b c : UnpackedFloat} (first : Below a b) (second : Below b c) : Below a c := by
  obtain ⟨r, atA, s, atB, low⟩ := first
  obtain ⟨s', atB', t, atC, high⟩ := second
  cases Option.mem_unique atB atB'
  exact ⟨r, atA, t, atC, low.trans high⟩

theorem below_finite {m n : Nat} {e f : Int} {a : 0 < m} {b : 0 < n} (before : e < f ∨ e = f ∧ m ≤ n) :
    Below (.finite .positive m e a) (.finite .positive n f b) := by
  refine ⟨_, rfl, _, rfl, ?_⟩
  rw [Prod.Lex.toLex_le_toLex, Prod.Lex.toLex_le_toLex, Nat.cast_le]
  exact .inr ⟨rfl, before⟩

inductive NonNegative : UnpackedFloat → Prop
  | zero (sign : Sign) : NonNegative (.zero sign)
  | finite (m : Nat) (e : Int) (positive : 0 < m) : NonNegative (.finite .positive m e positive)
  | infinity : NonNegative (.infinity .positive)

namespace NonNegative

variable {a : UnpackedFloat}

theorem refl (nonNegative : NonNegative a) : Below a a := by
  cases nonNegative <;> exact ⟨_, rfl, _, rfl, le_refl _⟩

theorem above (nonNegative : NonNegative a) (sign : Sign) : Below (.zero sign) a := by
  refine ⟨_, rfl, ?_⟩
  cases nonNegative with
  | zero => exact ⟨_, rfl, le_refl _⟩
  | finite => exact ⟨_, rfl, Prod.Lex.toLex_le_toLex.mpr (.inl (show (0 : ℤ) < 1 by decide))⟩
  | infinity => exact ⟨_, rfl, by decide⟩

theorem below_infinity (nonNegative : NonNegative a) : Below a (.infinity .positive) := by
  cases nonNegative with
  | zero => exact ⟨_, rfl, _, rfl, by decide⟩
  | finite => exact ⟨_, rfl, _, rfl, Prod.Lex.toLex_le_toLex.mpr (.inl (show (1 : ℤ) < 2 by decide))⟩
  | infinity => exact ⟨_, rfl, _, rfl, le_refl _⟩

end NonNegative

theorem nonNegative_iff {a : UnpackedFloat} {sign : Sign} : NonNegative a ↔ Below (.zero sign) a := by
  refine ⟨fun nonNegative => nonNegative.above sign, ?_⟩
  rintro ⟨r, ⟨⟩, s, place, low⟩
  rcases a with (_ | _) | _ | _ | ⟨_ | _, m, e, _⟩
  · cases place
    exact absurd low (by decide)
  · exact .infinity
  · cases place
  · exact .zero _
  · cases place
    rcases Prod.Lex.toLex_le_toLex.mp low with below | ⟨same, -⟩
    · exact absurd below (show ¬(0 : ℤ) < -1 by decide)
    · exact absurd same (show (0 : ℤ) ≠ -1 by decide)
  · exact .finite ..

theorem NonNegative.of_below {a b : UnpackedFloat} (nonNegative : NonNegative a) (below : Below a b) :
    NonNegative b :=
  nonNegative_iff.mpr ((nonNegative.above .positive).trans below)

/-- Not below zero, but maybe not a number. -/
def NotNegative (a : UnpackedFloat) : Prop := a = .notANumber ∨ NonNegative a

end Unpacked

variable {x y z : Float}

theorem le_iff : x ≤ y ↔ Below x.toModel.unpack y.toModel.unpack := by
  have unpacked : x ≤ y ↔ (x.toModel.unpack.compare y.toModel.unpack).any (·.isLE) = true :=
    decide_eq_true_iff
  rw [unpacked, compare_rank, Below]
  cases rank x.toModel.unpack with
  | none => simp
  | some r =>
    cases rank y.toModel.unpack with
    | none => simp
    | some s => simp [← Ordering.ne_gt_iff_isLE, ← compare_le_iff_le]

theorem lt_iff : x < y ↔ ∃ r ∈ rank x.toModel.unpack, ∃ s ∈ rank y.toModel.unpack, r < s := by
  have unpacked : x < y ↔ (x.toModel.unpack.compare y.toModel.unpack == some .lt) = true :=
    decide_eq_true_iff
  rw [unpacked, compare_rank]
  cases rank x.toModel.unpack with
  | none => simp
  | some r =>
    cases rank y.toModel.unpack with
    | none => simp
    | some s => simpa using compare_lt_iff_lt

theorem isNaN_eq_false : x.isNaN = false ↔ ∃ r, r ∈ rank x.toModel.unpack := by
  change x.toModel.unpack.isNaN = false ↔ ∃ r, rank x.toModel.unpack = some r
  rcases x.toModel.unpack with (_ | _) | _ | _ | ⟨_ | _, m, e, _⟩ <;> simp [rank, UnpackedFloat.isNaN]

protected theorem le_trans (first : x ≤ y) (second : y ≤ z) : x ≤ z :=
  le_iff.mpr ((le_iff.mp first).trans (le_iff.mp second))

theorem le_or_lt (first : x.isNaN = false) (second : y.isNaN = false) : x ≤ y ∨ y < x := by
  obtain ⟨r, atX⟩ := isNaN_eq_false.mp first
  obtain ⟨s, atY⟩ := isNaN_eq_false.mp second
  rcases le_or_gt r s with low | high
  · exact .inl (le_iff.mpr ⟨r, atX, s, atY, low⟩)
  · exact .inr (lt_iff.mpr ⟨s, atY, r, atX, high⟩)

protected theorem le_of_lt (below : x < y) : x ≤ y := by
  obtain ⟨r, atX, s, atY, below⟩ := lt_iff.mp below
  exact le_iff.mpr ⟨r, atX, s, atY, below.le⟩

protected theorem le_refl (number : x.isNaN = false) : x ≤ x :=
  (le_or_lt number number).elim id Binary64.le_of_lt

protected theorem not_lt_of_le (below : x ≤ y) : ¬y < x := by
  intro above
  obtain ⟨r, atX, s, atY, low⟩ := le_iff.mp below
  obtain ⟨s', atY', r', atX', high⟩ := lt_iff.mp above
  cases Option.mem_unique atX atX'
  cases Option.mem_unique atY atY'
  exact absurd low (not_le_of_gt high)

theorem isNaN_of_le (below : x ≤ y) : x.isNaN = false ∧ y.isNaN = false := by
  obtain ⟨r, atX, s, atY, -⟩ := le_iff.mp below
  exact ⟨isNaN_eq_false.mpr ⟨r, atX⟩, isNaN_eq_false.mpr ⟨s, atY⟩⟩

theorem isFinite_of_between {low high : Float} (above : low < x) (below : x < high) :
    x.isFinite = true := by
  have left : low.toModel.unpack.compare x.toModel.unpack = some .lt := beq_iff_eq.mp (of_decide_eq_true above)
  have right : x.toModel.unpack.compare high.toModel.unpack = some .lt := beq_iff_eq.mp (of_decide_eq_true below)
  change x.toModel.unpack.isFinite = true
  revert left right
  generalize x.toModel.unpack = x, low.toModel.unpack = low, high.toModel.unpack = high
  intro left right
  cases x with
  | infinity sign =>
    cases sign with
    | negative =>
      cases low with
      | infinity sign => cases sign <;> cases left
      | _ => cases left
    | positive =>
      cases high with
      | infinity sign => cases sign <;> cases right
      | _ => cases right
  | notANumber => cases right
  | zero sign => rfl
  | finite sign mantissa exponent positive => rfl

theorem zero_le_iff : 0 ≤ x ↔ NonNegative x.toModel.unpack := le_iff.trans nonNegative_iff.symm

theorem not_neg_iff : ¬x < 0 ↔ NotNegative x.toModel.unpack := by
  rw [NotNegative, ← zero_le_iff]
  constructor
  · intro notBelow
    cases number : x.isNaN with
    | true => exact .inl (UnpackedFloat.isNaN_iff.mp number)
    | false => exact .inr ((le_or_lt rfl number).resolve_right notBelow)
  · rintro (other | above)
    · intro below
      have number := (isNaN_of_le (Binary64.le_of_lt below)).1
      rw [show x.isNaN = true from UnpackedFloat.isNaN_iff.mpr other] at number
      cases number
    · exact Binary64.not_lt_of_le above

section Place

/-- Where a number stands among all numbers. What is not a number has no place of its own. -/
def place (x : Float) : ℤ ×ₗ ℤ ×ₗ ℤ := (rank x.toModel.unpack).getD (toLex (0, toLex (0, 0)))

theorem lt_iff_place (first : x.isNaN = false) (second : y.isNaN = false) : x < y ↔ place x < place y := by
  obtain ⟨r, atX⟩ := isNaN_eq_false.mp first
  obtain ⟨s, atY⟩ := isNaN_eq_false.mp second
  rw [lt_iff, place, place, atX, atY]
  simp

theorem beq_iff_place (first : x.isNaN = false) (second : y.isNaN = false) :
    (x == y) = true ↔ place x = place y := by
  obtain ⟨r, atX⟩ := isNaN_eq_false.mp first
  obtain ⟨s, atY⟩ := isNaN_eq_false.mp second
  have unpacked : (x == y) = (x.toModel.unpack.compare y.toModel.unpack == some .eq) := rfl
  rw [unpacked, compare_rank, place, place, atX, atY]
  change (some (compare r s) == some .eq) = true ↔ r = s
  rw [beq_iff_eq, Option.some.injEq, compare_eq_iff_eq]

end Place

end PlaneSketch.Binary64
