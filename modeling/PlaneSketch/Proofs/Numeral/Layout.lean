import PlaneSketch.Numeral.Layout
import PlaneSketch.Proofs.Binary64.Bits
import PlaneSketch.Proofs.Numeral.Shortest

/-! Laying out digits keeps their value, in every form of output. The numeral of a finite double is
therefore read back as that double. -/
namespace PlaneSketch

namespace Decimal

/-- Digits as they are laid out: no zero leads, unless it is the only digit. -/
structure Tidy (d : Decimal) : Prop where
  digits : Numeral.Digits d.digits
  zero : d.digits.head? = some '0' → d.digits = ['0'] ∧ d.lead = 0

theorem tidy_shortest (tie : Tie) (b : Nat) : (shortest tie b).Tidy := by
  rcases Nat.eq_zero_or_pos b with rfl | positive
  · have zero : shortest tie 0 = ⟨['0'], 0⟩ := if_pos rfl
    rw [zero]
    exact ⟨Numeral.digits_toDigits 0, fun _ => ⟨rfl, rfl⟩⟩
  · obtain ⟨d, place, back, same⟩ := exists_shortest tie positive
    rw [same]
    refine ⟨Numeral.digits_toDigits d, fun zero => ?_⟩
    exact absurd zero (Numeral.head_toDigits (pos_of_readsBack positive back))

end Decimal

namespace Layout

open Numeral

variable (layout : Layout) (negative : Bool) {d : Decimal}

private theorem value_padded (ds : List Char) (count : Nat) (place : Int) :
    (digitsValue (ds ++ List.replicate count '0') : ℚ) * 10 ^ (place - count) =
      digitsValue ds * 10 ^ place := by
  have shift : (10 : ℚ) ^ place = 10 ^ count * 10 ^ (place - count) := by
    rw [← zpow_natCast, ← zpow_add₀ (by norm_num)]
    congr 1
    omega
  rw [digitsValue_append, digitsValue_zeros, List.length_replicate, shift]
  push_cast
  ring

private theorem value_positionalNumeral (d : Decimal) :
    (layout.positionalNumeral negative d).value = d.value := by
  rw [positionalNumeral]
  split
  case isTrue small =>
    have digits : digitsValue ('0' :: (List.replicate (-d.lead - 1).toNat '0' ++ d.digits)) =
        digitsValue d.digits := by
      rw [← List.cons_append, ← List.replicate_succ, digitsValue_append, digitsValue_zeros, Nat.mul_zero,
        Nat.zero_add]
    simp only [value, Numeral.digits, Option.getD_some, List.cons_append, List.nil_append, digits,
      scale, Option.elim_none, List.length_append, List.length_replicate, Decimal.value]
    congr 2
    push_cast
    omega
  case isFalse large =>
    simp only
    split
    case isTrue short =>
      rw [Decimal.value, ← value_padded d.digits (d.lead.toNat + 1 - d.digits.length)]
      cases layout.wholePoint with
      | false =>
        simp only [value, Numeral.digits, scale, Bool.false_eq_true, if_false, Option.getD_none,
          List.append_nil, Option.elim_none, List.length_nil]
        congr 2
        omega
      | true =>
        rw [← value_padded _ 1]
        simp only [value, Numeral.digits, scale, if_true, Option.getD_some, Option.elim_none,
          List.length_cons, List.length_nil, List.replicate_one]
        congr 2
        omega
    case isFalse long =>
      simp only [value, Numeral.digits, Option.getD_some, List.take_append_drop, scale,
        Option.elim_none, List.length_drop, Decimal.value]
      congr 2
      omega

private theorem value_scientificNumeral (tidy : Digits d.digits) :
    (layout.scientificNumeral negative d).value = d.value := by
  have one : 0 < d.digits.length := List.length_pos_of_ne_nil tidy.one
  have digits : (layout.scientificNumeral negative d).digits = d.digits := by
    simp only [scientificNumeral, Numeral.digits]
    split
    case isTrue single =>
      rw [List.take_of_length_le single]
      exact List.append_nil _
    case isFalse => exact List.take_append_drop 1 d.digits
  have scale : (layout.scientificNumeral negative d).scale = d.lead - d.digits.length + 1 := by
    have fraction : ((layout.scientificNumeral negative d).fraction.getD []).length =
        d.digits.length - 1 := by
      simp only [scientificNumeral]
      split
      · simp only [Option.getD_none, List.length_nil]
        omega
      · simp only [Option.getD_some, List.length_drop]
    have exponent : ((layout.scientificNumeral negative d).exponent.elim 0 fun e =>
        if e.1 = .minus then -(digitsValue e.2 : Int) else (digitsValue e.2 : Int)) = d.lead := by
      simp only [scientificNumeral, Option.elim_some, digitsValue_toDigits]
      split
      · simp only [if_true]
        omega
      · cases layout.plus <;> simp <;> omega
    rw [Numeral.scale, fraction, exponent]
    omega
  rw [value, digits, scale, Decimal.value]

private theorem value_numeral (tidy : Digits d.digits) : (layout.numeral negative d).value = d.value := by
  rw [numeral]
  split
  · exact layout.value_positionalNumeral negative d
  · exact layout.value_scientificNumeral negative tidy

private theorem digits_zeros {ds : List Char} (digits : Digits ds) (count : Nat) :
    Digits (List.replicate count '0' ++ ds) ∧ Digits (ds ++ List.replicate count '0') := by
  have zeros : ∀ c ∈ List.replicate count '0', c.isDigit = true := by
    intro c member
    rw [List.eq_of_mem_replicate member]
    rfl
  refine ⟨⟨?_, ?_⟩, ⟨?_, ?_⟩⟩
  · exact List.append_ne_nil_of_right_ne_nil _ digits.one
  · exact List.forall_mem_append.mpr ⟨zeros, digits.digits⟩
  · exact List.append_ne_nil_of_left_ne_nil digits.one _
  · exact List.forall_mem_append.mpr ⟨digits.digits, zeros⟩

theorem digits_take {ds : List Char} (digits : Digits ds) {count : Nat} (some : 0 < count) :
    Digits (ds.take count) where
  one := by
    intro nothing
    rcases List.take_eq_nil_iff.mp nothing with none | none
    · omega
    · exact digits.one none
  digits := fun c member => digits.digits c (List.mem_of_mem_take member)

theorem digits_drop {ds : List Char} (digits : Digits ds) {count : Nat} (more : count < ds.length) :
    Digits (ds.drop count) where
  one := by
    intro nothing
    have short := List.drop_eq_nil_iff.mp nothing
    omega
  digits := fun c member => digits.digits c (List.mem_of_mem_drop member)

private theorem head?_take {ds : List Char} {count : Nat} (some : 0 < count) :
    (ds.take count).head? = ds.head? := by
  rw [List.head?_take, if_neg (Nat.ne_of_gt some)]

private theorem spelled_positionalNumeral (tidy : d.Tidy) :
    (layout.positionalNumeral negative d).Spelled := by
  have zero : Digits ['0'] := digits_toDigits 0
  rw [positionalNumeral]
  split
  case isTrue small =>
    refine ⟨zero, fun _ => rfl, ?_, fun _ missing => nomatch missing⟩
    intro ds here
    cases here
    exact (digits_zeros tidy.digits _).1
  case isFalse large =>
    simp only
    split
    case isTrue short =>
      refine ⟨(digits_zeros tidy.digits _).2, ?_, ?_, fun _ missing => nomatch missing⟩
      · intro lead
        rw [List.head?_append_of_ne_nil _ tidy.digits.one] at lead
        obtain ⟨only, first⟩ := tidy.zero lead
        rw [only, first]
        rfl
      · intro ds here
        rw [Option.mem_def] at here
        split at here
        · cases here
          exact zero
        · cases here
    case isFalse long =>
      refine ⟨digits_take tidy.digits (by omega), ?_, ?_, fun _ missing => nomatch missing⟩
      · intro lead
        rw [head?_take (by omega)] at lead
        obtain ⟨only, first⟩ := tidy.zero lead
        rw [only, first] at long
        exact absurd (Nat.le_refl 1) long
      · intro ds here
        cases here
        exact digits_drop tidy.digits (by omega)

private theorem spelled_scientificNumeral (tidy : d.Tidy) :
    (layout.scientificNumeral negative d).Spelled := by
  have one : 0 < d.digits.length := List.length_pos_of_ne_nil tidy.digits.one
  refine ⟨digits_take tidy.digits (by decide), ?_, ?_, ?_⟩
  · intro _
    change (d.digits.take 1).length = 1
    rw [List.length_take]
    omega
  · intro ds here
    simp only [scientificNumeral] at here
    split at here
    · cases here
    · cases here
      exact digits_drop tidy.digits (by omega)
  · intro e here
    cases here
    exact digits_toDigits _

private theorem spelled_numeral (tidy : d.Tidy) : (layout.numeral negative d).Spelled := by
  rw [numeral]
  split
  · exact layout.spelled_positionalNumeral negative tidy
  · exact layout.spelled_scientificNumeral negative tidy

private theorem negative_numeral (d : Decimal) : (layout.numeral negative d).negative = negative := by
  rw [numeral]
  split
  · rw [positionalNumeral]
    split
    · rfl
    · simp only
      split <;> rfl
  · rfl

end Layout

namespace Numeral

theorem spelled_ofFloat (x : Float) : (ofFloat x).Spelled :=
  Layout.json.spelled_numeral _ (Decimal.tidy_shortest _ _)

private theorem value_ofFloat (x : Float) :
    (ofFloat x).value = (Decimal.shortest .toEven (Binary64.magnitude x)).value :=
  Layout.json.value_numeral _ (Decimal.tidy_shortest _ _).digits

private theorem magnitude_ofFloat {x : Float} (finite : x.isFinite = true) :
    (ofFloat x).magnitude = Binary64.magnitude x := by
  have value := value_ofFloat x
  rcases Nat.eq_zero_or_pos (Binary64.magnitude x) with zero | positive
  · rw [zero]
    apply magnitude_eq_zero
    rw [value, zero]
    exact zero_mul _
  · obtain ⟨d, place, back, same⟩ := Decimal.exists_shortest .toEven positive
    rw [same, Decimal.value_ofMultiple] at value
    apply magnitude_eq _ positive ((Binary64.isFinite_iff x).mp finite)
    rw [value]
    exact Decimal.rounds_of_readsBack positive back

/-- A finite double is read back from what is written of it. -/
theorem toFloat?_ofFloat {x : Float} (finite : x.isFinite = true) : (ofFloat x).toFloat? = some x := by
  have negative : (ofFloat x).negative = Binary64.isNegative x := Layout.json.negative_numeral _ _
  rw [toFloat?, magnitude_ofFloat finite, negative, if_pos ((Binary64.isFinite_iff x).mp finite),
    Binary64.toFloat_magnitude finite]

end Numeral

end PlaneSketch
