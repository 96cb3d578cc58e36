import PlaneSketch.Proofs.Binary64.Sum

/-! Doubles that are not below zero. Square roots, magnitudes, sums of such doubles and differences of
ordered ones are not, except that they need not be numbers. -/
namespace PlaneSketch.Binary64

open Float.Model UnpackedFloat

section Unpacked

theorem roundWithAccuracy_nonNegative (m : Nat) (e : Int) (accuracy : Accuracy) :
    NonNegative (roundWithAccuracy format .positive m e accuracy) := by
  unfold roundWithAccuracy
  simp only
  split
  · exact .zero _
  · exact .finite ..

private theorem normalize_nonNegative {total : Int} (above : 0 ≤ total) (low : Int) :
    NonNegative (UnpackedFloat.normalize format total low .positive) := by
  obtain ⟨total, rfl⟩ := Int.eq_ofNat_of_zero_le above
  rcases Nat.eq_zero_or_pos total with rfl | positive
  · exact .zero _
  · rw [normalize_natCast positive]
    exact roundWithAccuracy_nonNegative ..

private theorem unpack_positive (exponent : BitVec 11) (mantissa : BitVec 52) :
    NotNegative (UnpackedFloat.unpack format (packComponents format .positive exponent mantissa)) := by
  simp only [UnpackedFloat.unpack, unpackSign_packComponents, unpackExponent_packComponents,
    unpackMantissa_packComponents, Sign.ofBitVec_toBitVec]
  split
  · split
    · exact .inr .infinity
    · exact .inl rfl
  · right
    split
    · split
      · exact .zero _
      · exact .finite ..
    · exact .finite ..

theorem NotNegative.pack {w : UnpackedFloat} (notNegative : NotNegative w) :
    NotNegative (UnpackedFloat.unpack format (UnpackedFloat.pack format w)) := by
  rcases notNegative with rfl | sign | ⟨m, e, a⟩ | _
  · exact .inl unpack_packedNaN
  · exact .inr (unpack_packedZero.symm ▸ .zero sign)
  · simp only [UnpackedFloat.pack]
    split
    · exact unpack_positive ..
    · split <;> exact unpack_positive ..
  · exact unpack_positive ..

private theorem sqrt_notNegative (w : UnpackedFloat) : NotNegative (UnpackedFloat.sqrt format w) := by
  rcases w with (_ | _) | _ | sign | ⟨_ | _, m, e, _⟩
  · exact .inl rfl
  · exact .inr .infinity
  · exact .inl rfl
  · exact .inr (.zero sign)
  · exact .inl rfl
  · exact .inr (roundWithAccuracy_nonNegative ..)

private theorem abs_notNegative (w : UnpackedFloat) : NotNegative w.abs := by
  cases w with
  | infinity => exact .inr .infinity
  | notANumber => exact .inl rfl
  | zero => exact .inr (.zero _)
  | finite => exact .inr (.finite ..)

private theorem units_le {m n : Nat} {e f : Int} {a : 0 < m} {b : 0 < n} {s t : Sign}
    (first : Canonical (.finite s m e a)) (second : Canonical (.finite t n f b))
    (before : e < f ∨ e = f ∧ m ≤ n) : units m e (min e f) ≤ units n f (min e f) := by
  rcases before with finer | ⟨rfl, less⟩
  · have many : 2 ^ 52 ≤ n := second.2.2.resolve_left (by have := first.2.1; omega)
    have coarse : 2 ^ 1 ≤ 2 ^ (f - e).toNat := Nat.pow_le_pow_right (by decide) (by omega)
    have least : 2 ^ 52 * 2 ^ 1 ≤ n * 2 ^ (f - e).toNat := Nat.mul_le_mul many coarse
    rw [min_eq_left finer.le, units, units, Int.sub_self]
    exact (Nat.mul_one m).trans_le (first.1.le.trans least)
  · exact Nat.mul_le_mul_right _ less

theorem sub_finite (s t : Sign) (m n : Nat) (e f : Int) (a : 0 < m) (b : 0 < n) :
    UnpackedFloat.sub format (.finite s m e a) (.finite t n f b) =
      UnpackedFloat.normalize format (s.apply (units m e (min e f)) - t.apply (units n f (min e f)))
        (min e f) .positive := by
  simp only [units, ← Nat.shiftLeft_eq]
  rfl

private theorem sub_finite_nonNegative {m n : Nat} {e f : Int} {a : 0 < m} {b : 0 < n} {s t : Sign}
    (first : Canonical (.finite s m e a)) (second : Canonical (.finite t n f b))
    (below : Below (.finite t n f b) (.finite s m e a)) :
    NonNegative (UnpackedFloat.sub format (.finite s m e a) (.finite t n f b)) := by
  -- The difference is exact before it is rounded, so it is enough to compare units.
  have ordered : t.apply (units n f (min e f)) ≤ s.apply (units m e (min e f)) := by
    cases s with
    | positive =>
      cases t with
      | positive =>
        have before : f < e ∨ f = e ∧ n ≤ m := by
          simpa [Below, rank, Prod.Lex.toLex_le_toLex] using below
        have fewer := units_le second first before
        rw [min_comm] at fewer
        exact Int.ofNat_le.mpr fewer
      | negative =>
        change -(units n f (min e f) : Int) ≤ units m e (min e f)
        omega
    | negative =>
      cases t with
      | positive => simp [Below, rank, Prod.Lex.toLex_le_toLex] at below
      | negative =>
        have before : e < f ∨ e = f ∧ m ≤ n := by
          simpa [Below, rank, Prod.Lex.toLex_le_toLex, eq_comm] using below
        exact Int.neg_le_neg (Int.ofNat_le.mpr (units_le first second before))
  rw [sub_finite]
  exact normalize_nonNegative (Int.sub_nonneg_of_le ordered) _

private theorem eq_of_below_lowest {w : UnpackedFloat} (below : Below w (.infinity .negative)) :
    w = .infinity .negative := by
  rcases w with (_ | _) | _ | _ | ⟨_ | _, _, _, _⟩
  · rfl
  all_goals simp [Below, rank, Prod.Lex.toLex_le_toLex] at below

private theorem sub_notNegative {v w : UnpackedFloat} (first : Canonical v) (second : Canonical w)
    (below : Below w v) : NotNegative (UnpackedFloat.sub format v w) := by
  cases v with
  | notANumber => exact .inl rfl
  | infinity s =>
    cases s with
    | positive =>
      rcases w with (_ | _) | _ | _ | _
      · exact .inr .infinity
      · exact .inl rfl
      · exact .inl rfl
      · exact .inr .infinity
      · exact .inr .infinity
    | negative =>
      rw [eq_of_below_lowest below]
      exact .inl rfl
  | zero s =>
    rcases w with (_ | _) | _ | t | ⟨_ | _, _, _, _⟩
    · exact .inr .infinity
    · simp [Below, rank, Prod.Lex.toLex_le_toLex] at below
    · exact .inl rfl
    · cases s <;> cases t <;> exact .inr (.zero _)
    · exact .inr (.finite ..)
    · simp [Below, rank, Prod.Lex.toLex_le_toLex] at below
  | finite s m e a =>
    rcases w with (_ | _) | _ | t | ⟨t, n, f, b⟩
    · exact .inr .infinity
    · cases s <;> simp [Below, rank, Prod.Lex.toLex_le_toLex] at below
    · exact .inl rfl
    · exact .inr (nonNegative_iff.mpr below)
    · exact .inr (sub_finite_nonNegative first second below)

end Unpacked

variable {x y : Float}

theorem not_neg_sqrt (x : Float) : ¬x.sqrt < 0 := not_neg_iff.mpr (sqrt_notNegative _).pack

theorem not_neg_abs (x : Float) : ¬x.abs < 0 := not_neg_iff.mpr (abs_notNegative _).pack

theorem not_neg_sub (below : y ≤ x) : ¬x - y < 0 :=
  not_neg_iff.mpr (sub_notNegative (canonical_unpack _) (canonical_unpack _) (le_iff.mp below)).pack

theorem zero_le_of_not_neg (notNegative : ¬x < 0) (number : x.isNaN = false) : 0 ≤ x :=
  (le_or_lt rfl number).resolve_right notNegative

theorem not_neg_add (left : ¬x < 0) (right : ¬y < 0) : ¬x + y < 0 := by
  intro below
  obtain ⟨first, second⟩ := isNaN_add (isNaN_of_le (Binary64.le_of_lt below)).1
  have above := zero_le_of_not_neg left first
  have sum := (le_add above (zero_le_of_not_neg right second)).1
  exact Binary64.not_lt_of_le (Binary64.le_trans above sum) below

theorem not_neg_foldl_add {xs : List Float} {start : Float} (first : ¬start < 0)
    (parts : ∀ x ∈ xs, ¬x < 0) : ¬xs.foldl (· + ·) start < 0 := by
  induction xs generalizing start with
  | nil => exact first
  | cons x xs ih =>
    obtain ⟨here, later⟩ := List.forall_mem_cons.mp parts
    exact ih (not_neg_add first here) later

theorem le_of_foldl_add_le {xs : List Float} {start bound : Float} (first : ¬start < 0)
    (parts : ∀ x ∈ xs, ¬x < 0) (total : xs.foldl (· + ·) start ≤ bound) :
    start ≤ bound ∧ ∀ x ∈ xs, x ≤ bound := by
  induction xs generalizing start with
  | nil => exact ⟨total, fun _ none => nomatch none⟩
  | cons x xs ih =>
    obtain ⟨here, later⟩ := List.forall_mem_cons.mp parts
    -- The bound makes the sum so far a number, and so both of its parts.
    obtain ⟨sum, rest⟩ := ih (not_neg_add first here) later total
    obtain ⟨left, right⟩ := isNaN_add (isNaN_of_le sum).1
    obtain ⟨before, next⟩ := le_add (zero_le_of_not_neg first left) (zero_le_of_not_neg here right)
    exact ⟨Binary64.le_trans before sum, List.forall_mem_cons.mpr ⟨Binary64.le_trans next sum, rest⟩⟩

private theorem isNaN_add_iff (left : ¬x < 0) (right : ¬y < 0) :
    (x + y).isNaN = true ↔ x.isNaN = true ∨ y.isNaN = true := by
  rw [← not_iff_not, not_or, Bool.not_eq_true, Bool.not_eq_true, Bool.not_eq_true]
  constructor
  · exact isNaN_add
  · rintro ⟨first, second⟩
    exact (isNaN_of_le (le_add (zero_le_of_not_neg left first) (zero_le_of_not_neg right second)).1).2

theorem isNaN_foldl_add_iff {xs : List Float} {start : Float} (first : ¬start < 0)
    (parts : ∀ x ∈ xs, ¬x < 0) :
    (xs.foldl (· + ·) start).isNaN = true ↔ start.isNaN = true ∨ ∃ x ∈ xs, x.isNaN = true := by
  induction xs generalizing start with
  | nil => simp
  | cons x xs ih =>
    obtain ⟨here, later⟩ := List.forall_mem_cons.mp parts
    rw [List.foldl_cons, ih (not_neg_add first here) later, isNaN_add_iff first here, or_assoc]
    simp only [List.mem_cons, exists_eq_or_imp]

end PlaneSketch.Binary64
