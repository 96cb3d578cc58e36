import PlaneSketch.Numeral
import PlaneSketch.Proofs.Binary64.Nearest
import Mathlib.Tactic.IntervalCases

/-! Numerals are read back from their characters, and a numeral whose exact value rounds to a
magnitude has that magnitude. -/
namespace PlaneSketch.Numeral

section Digits

theorem digitsValue_toDigits (n : Nat) : digitsValue (Nat.toDigits 10 n) = n :=
  Nat.ofDigitChars_ten_toDigits

theorem digitsValue_append (ds es : List Char) :
    digitsValue (ds ++ es) = 10 ^ es.length * digitsValue ds + digitsValue es := by
  change Nat.ofDigitChars 10 (ds ++ es) 0 = _
  rw [Nat.ofDigitChars_append, Nat.ofDigitChars_eq_ofDigitChars_zero]
  rfl

theorem digitsValue_zeros (n : Nat) : digitsValue (List.replicate n '0') = 0 := by
  change Nat.ofDigitChars 10 (List.replicate n '0') 0 = 0
  rw [Nat.ofDigitChars_replicate_zero, Nat.mul_zero]

theorem toDigits_bounds {d : Nat} (positive : 0 < d) :
    10 ^ ((Nat.toDigits 10 d).length - 1) ≤ d ∧ d < 10 ^ (Nat.toDigits 10 d).length := by
  constructor
  · rcases Nat.lt_or_ge 1 (Nat.toDigits 10 d).length with several | one
    · have short : ¬(Nat.toDigits 10 d).length ≤ (Nat.toDigits 10 d).length - 1 := by omega
      rw [Nat.length_toDigits_le_iff (by decide) (by omega)] at short
      exact Nat.le_of_not_lt short
    · rw [Nat.sub_eq_zero_of_le one]
      exact positive
  · exact (Nat.length_toDigits_le_iff (by decide) Nat.length_toDigits_pos).mp (Nat.le_refl _)

end Digits

def value (n : Numeral) : ℚ := digitsValue n.digits * 10 ^ n.scale

section Magnitude

variable {n : Numeral} {b : Nat}

theorem value_eq (n : Numeral) :
    ((digitsValue n.digits * tenTo n.scale.toNat : Nat) : ℚ) / (tenTo (-n.scale).toNat : Nat) =
      n.value := by
  rw [value, zpow_eq_div (by norm_num)]
  push_cast
  rw [cast_tenTo, cast_tenTo, mul_div_assoc]

theorem value_bounds (positive : 0 < digitsValue n.digits) :
    (10 : ℚ) ^ ((Nat.toDigits 10 (digitsValue n.digits)).length + n.scale - 1) ≤ n.value ∧
      n.value < 10 ^ ((Nat.toDigits 10 (digitsValue n.digits)).length + n.scale) := by
  obtain ⟨low, high⟩ := toDigits_bounds positive
  have some : 0 < (Nat.toDigits 10 (digitsValue n.digits)).length := Nat.length_toDigits_pos
  rw [← Nat.cast_le (α := ℚ), Nat.cast_pow] at low
  rw [← Nat.cast_lt (α := ℚ), Nat.cast_pow] at high
  have unit : (0 : ℚ) < 10 ^ n.scale := by positivity
  constructor
  · have split : (10 : ℚ) ^ (((Nat.toDigits 10 (digitsValue n.digits)).length : Int) + n.scale - 1) =
        10 ^ ((Nat.toDigits 10 (digitsValue n.digits)).length - 1) * 10 ^ n.scale := by
      rw [← zpow_natCast, ← zpow_add₀ (by norm_num)]
      congr 1
      omega
    rw [split, value]
    exact mul_le_mul_of_nonneg_right low unit.le
  · rw [zpow_add₀ (by norm_num), zpow_natCast, value]
    exact mul_lt_mul_of_pos_right high unit

theorem range_lt : (2 : ℚ) ^ (1075 : Int) < 10 ^ (400 : Int) := by
  calc (2 : ℚ) ^ (1075 : Int) = (2 ^ (43 : Int)) ^ 25 := by
        rw [show (1075 : Int) = 43 * (25 : Nat) by norm_num, zpow_mul, zpow_natCast]
    _ < (10 ^ (16 : Int)) ^ 25 := by
        gcongr
        norm_num
    _ = 10 ^ (400 : Int) := by
        rw [show (400 : Int) = 16 * (25 : Nat) by norm_num, zpow_mul, zpow_natCast]

/-- A numeral stands for the magnitude that its exact value rounds to. The numerals that are decided
by the place of their first digit are out of the range of finite doubles. -/
theorem magnitude_eq (rounds : Binary64.Rounds b n.value) (positive : 0 < b)
    (finite : b < Binary64.infinity) : n.magnitude = b := by
  have least := rounds.least_le positive
  have most := rounds.lt_most finite
  have nonzero : 0 < digitsValue n.digits := by
    rw [Nat.pos_iff_ne_zero]
    intro zero
    rw [value, zero, Nat.cast_zero, zero_mul] at least
    exact absurd least (not_le_of_gt (by positivity))
  obtain ⟨low, high⟩ := value_bounds nonzero
  have small : ¬((Nat.toDigits 10 (digitsValue n.digits)).length : Int) + n.scale < -400 := by
    intro few
    have tiny : n.value < 10 ^ (-400 : Int) :=
      high.trans (zpow_lt_zpow_right₀ (by norm_num) few)
    have below : (10 : ℚ) ^ (-400 : Int) < 2 ^ (-1075 : Int) := by
      rw [zpow_neg, zpow_neg, inv_lt_inv₀ (by positivity) (by positivity)]
      exact range_lt
    exact absurd least (not_le_of_gt (tiny.trans below))
  have large : ¬400 < ((Nat.toDigits 10 (digitsValue n.digits)).length : Int) + n.scale := by
    intro many
    have huge : (10 : ℚ) ^ (400 : Int) ≤ n.value :=
      (zpow_le_zpow_right₀ (by norm_num) (by omega)).trans low
    have wide : (2 : ℚ) ^ (1024 : Int) < 2 ^ (1075 : Int) :=
      zpow_lt_zpow_right₀ (by norm_num) (by norm_num)
    exact absurd most (not_lt_of_ge ((wide.trans range_lt).le.trans huge))
  rw [magnitude, if_neg (by omega), if_neg large]
  apply Binary64.nearest_eq (Nat.mul_pos nonzero (tenTo_pos _)) (tenTo_pos _)
  rw [value_eq]
  exact rounds

theorem magnitude_eq_zero (zero : n.value = 0) : n.magnitude = 0 := by
  have none : digitsValue n.digits = 0 := by
    rcases mul_eq_zero.mp zero with none | never
    · exact_mod_cast none
    · exact absurd never (by positivity)
  rw [magnitude, if_pos (.inl none)]

end Magnitude

section Reading

structure Digits (ds : List Char) : Prop where
  one : ds ≠ []
  digits : ∀ c ∈ ds, c.isDigit = true

/-- A numeral as it can be written: every part that is there has digits, and no zero leads. -/
structure Spelled (n : Numeral) : Prop where
  whole : Digits n.whole
  lead : n.whole.head? = some '0' → n.whole.length = 1
  fraction : ∀ ds ∈ n.fraction, Digits ds
  exponent : ∀ e ∈ n.exponent, Digits e.2

/-- The text does not go on with a character that satisfies `p`. -/
def Stops (p : Char → Prop) (rest : List Char) : Prop := ∀ c ∈ rest.head?, ¬p c

def Continues (c : Char) : Prop := c.isDigit = true ∨ c = '.' ∨ c = 'e' ∨ c = 'E'

variable {ds rest : List Char}

theorem Stops.mono {p q : Char → Prop} (stops : Stops p rest) (weaker : ∀ c, q c → p c) : Stops q rest :=
  fun c first holds => stops c first (weaker c holds)

theorem digits_toDigits (n : Nat) : Digits (Nat.toDigits 10 n) where
  one := Nat.toDigits_ne_nil
  digits := fun _ member => Nat.isDigit_of_mem_toDigits (by decide) (by decide) member

theorem readDigits_append (digits : Digits ds) (stops : Stops (fun c => c.isDigit = true) rest) :
    readDigits (ds ++ rest) = some (ds, rest) := by
  have none : rest.takeWhile Char.isDigit = [] ∧ rest.dropWhile Char.isDigit = rest := by
    cases rest with
    | nil => exact ⟨rfl, rfl⟩
    | cons c rest =>
      have other : ¬c.isDigit = true := stops c rfl
      exact ⟨List.takeWhile_cons_of_neg other, List.dropWhile_cons_of_neg other⟩
  have taken : (ds ++ rest).takeWhile Char.isDigit = ds := by
    rw [List.takeWhile_append_of_pos digits.digits, none.1, List.append_nil]
  have dropped : (ds ++ rest).dropWhile Char.isDigit = rest := by
    rw [List.dropWhile_append_of_pos digits.digits, none.2]
  rw [readDigits, taken, dropped]
  cases ds with
  | nil => exact absurd rfl digits.one
  | cons => rfl

private theorem readWhole_append (digits : Digits ds) (lead : ds.head? = some '0' → ds.length = 1)
    (stops : Stops (fun c => c.isDigit = true) rest) : readWhole (ds ++ rest) = some (ds, rest) := by
  rw [readWhole, readDigits_append digits stops]
  change (if ds.head? = some '0' ∧ ds.length ≠ 1 then none else some (ds, rest)) = _
  rw [if_neg]
  rintro ⟨zero, several⟩
  exact several (lead zero)

private theorem readFraction_append {fraction : Option (List Char)} (digits : ∀ ds ∈ fraction, Digits ds)
    (stops : Stops (fun c => c.isDigit = true ∨ c = '.') rest) :
    readFraction (fraction.elim [] ('.' :: ·) ++ rest) = some (fraction, rest) := by
  cases fraction with
  | none =>
    cases rest with
    | nil => rfl
    | cons c rest =>
      have other : c ≠ '.' := fun same => stops c rfl (.inr same)
      simp [readFraction, other]
  | some ds =>
    change (readDigits (ds ++ rest)).map _ = _
    rw [readDigits_append (digits ds rfl) (stops.mono fun _ => .inl)]
    rfl

private theorem readSign_append (sign : ExponentSign) (digits : Digits ds) :
    readSign (sign.chars ++ (ds ++ rest)) = (sign, ds ++ rest) := by
  cases sign with
  | plus => rfl
  | minus => rfl
  | unsigned =>
    cases ds with
    | nil => exact absurd rfl digits.one
    | cons c ds =>
      have digit := digits.digits c List.mem_cons_self
      have plus : c ≠ '+' := by
        rintro rfl
        cases digit
      have minus : c ≠ '-' := by
        rintro rfl
        cases digit
      simp [readSign, ExponentSign.chars, plus, minus]

private theorem readExponent_append {exponent : Option (ExponentSign × List Char)}
    (digits : ∀ e ∈ exponent, Digits e.2)
    (stops : Stops (fun c => c.isDigit = true ∨ c = 'e' ∨ c = 'E') rest) :
    readExponent ((exponent.elim [] fun e => 'e' :: e.1.chars ++ e.2) ++ rest) = some (exponent, rest) := by
  cases exponent with
  | none =>
    cases rest with
    | nil => rfl
    | cons c rest =>
      have other : ¬(c = 'e' ∨ c = 'E') := fun same => stops c rfl (.inr same)
      simp [readExponent, other]
  | some e =>
    obtain ⟨sign, ds⟩ := e
    have found := digits _ rfl
    simp only [Option.elim_some, List.cons_append, List.append_assoc, readExponent, true_or, if_true]
    rw [readSign_append sign found, readDigits_append found (stops.mono fun _ => .inl)]
    rfl

private theorem readMagnitude_append {n : Numeral} (spelled : n.Spelled) (stops : Stops Continues rest) :
    readMagnitude n.negative (n.whole ++ (n.fraction.elim [] ('.' :: ·) ++
      ((n.exponent.elim [] fun e => 'e' :: e.1.chars ++ e.2) ++ rest))) = some (n, rest) := by
  have afterFraction : Stops (fun c => c.isDigit = true ∨ c = '.')
      ((n.exponent.elim [] fun e => 'e' :: e.1.chars ++ e.2) ++ rest) := by
    cases n.exponent with
    | none =>
      apply stops.mono
      intro c
      rw [Continues]
      tauto
    | some e =>
      intro c first
      cases first
      decide
  have afterWhole : Stops (fun c => c.isDigit = true) (n.fraction.elim [] ('.' :: ·) ++
      ((n.exponent.elim [] fun e => 'e' :: e.1.chars ++ e.2) ++ rest)) := by
    cases n.fraction with
    | none => exact afterFraction.mono fun _ => .inl
    | some ds =>
      intro c first
      cases first
      decide
  have afterExponent : Stops (fun c => c.isDigit = true ∨ c = 'e' ∨ c = 'E') rest := by
    apply stops.mono
    intro c
    rw [Continues]
    tauto
  rw [readMagnitude, readWhole_append spelled.whole spelled.lead afterWhole]
  change (readFraction _ >>= fun _ => _) = _
  rw [readFraction_append spelled.fraction afterFraction]
  change (readExponent _ >>= fun _ => _) = _
  rw [readExponent_append spelled.exponent afterExponent]
  rfl

/-- A numeral is read back from its characters, whatever follows that does not go on with it. -/
theorem read_chars {n : Numeral} (spelled : n.Spelled) (stops : Stops Continues rest) :
    read (n.chars ++ rest) = some (n, rest) := by
  have magnitude := readMagnitude_append spelled stops
  obtain ⟨negative, whole, fraction, exponent⟩ := n
  cases negative with
  | true =>
    simp only [chars, if_true, List.append_assoc, List.cons_append, List.nil_append]
    exact magnitude
  | false =>
    cases whole with
    | nil => exact absurd rfl spelled.whole.one
    | cons c whole =>
      have digit := spelled.whole.digits c List.mem_cons_self
      have minus : c ≠ '-' := by
        rintro rfl
        cases digit
      have positive (cs : List Char) : read (c :: cs) = readMagnitude false (c :: cs) := by
        simp [read, minus]
      simp only [chars, Bool.false_eq_true, if_false, List.append_assoc, List.cons_append,
        List.nil_append, positive]
      exact magnitude

end Reading

section Naturals

theorem toNat?_ofNat {n : Nat} (small : n < twoTo 64) : (ofNat n).toNat? = some n := by
  change (if digitsValue (Nat.toDigits 10 n) < twoTo 64 then _ else none) = _
  rw [digitsValue_toDigits, if_pos small]

theorem head_toDigits {n : Nat} (positive : 0 < n) : (Nat.toDigits 10 n).head? ≠ some '0' := by
  induction n using Nat.strongRecOn with
  | ind n ih =>
    rcases Nat.lt_or_ge n 10 with small | large
    · rw [Nat.toDigits_of_lt_base small]
      interval_cases n <;> decide
    · rw [Nat.toDigits_of_base_le (by decide) large, List.head?_append_of_ne_nil _ Nat.toDigits_ne_nil]
      exact ih (n / 10) (by omega) (by omega)

private theorem lead_toDigits (n : Nat) (zero : (Nat.toDigits 10 n).head? = some '0') :
    (Nat.toDigits 10 n).length = 1 := by
  cases n with
  | zero => rfl
  | succ n => exact absurd zero (head_toDigits (Nat.succ_pos n))

theorem spelled_ofNat (n : Nat) : (ofNat n).Spelled where
  whole := digits_toDigits n
  lead := lead_toDigits n
  fraction := fun _ missing => nomatch missing
  exponent := fun _ missing => nomatch missing

private theorem value_ofNat (n : Nat) : (ofNat n).value = n := by
  have digits : digitsValue (ofNat n).digits = n := by
    rw [digits, ofNat]
    exact (congrArg digitsValue (List.append_nil _)).trans (digitsValue_toDigits n)
  rw [value, digits]
  exact mul_one _

theorem magnitude_ofNat_lt {n : Nat} (small : n < twoTo 64) :
    (ofNat n).magnitude < Binary64.infinity := by
  have bound : (ofNat n).value < 2 ^ 64 := by
    rw [value_ofNat, ← cast_twoTo]
    exact_mod_cast small
  rw [magnitude]
  split
  case isTrue => exact Nat.mul_pos (by decide) (twoTo_pos _)
  case isFalse nonzero =>
    rw [not_or] at nonzero
    have positive : 0 < digitsValue (ofNat n).digits := Nat.pos_of_ne_zero nonzero.1
    rw [if_neg]
    · apply Binary64.nearest_lt (Nat.mul_pos positive (tenTo_pos _)) (tenTo_pos _)
      rw [value_eq]
      exact bound
    · intro many
      have huge : (10 : ℚ) ^ (400 : Int) ≤ (ofNat n).value :=
        (zpow_le_zpow_right₀ (by norm_num) (by omega)).trans (value_bounds positive).1
      have wide : (2 : ℚ) ^ (64 : Int) < 2 ^ (1075 : Int) :=
        zpow_lt_zpow_right₀ (by norm_num) (by norm_num)
      exact absurd (bound.trans (wide.trans range_lt)) (not_lt_of_ge huge)

end Naturals

end PlaneSketch.Numeral
