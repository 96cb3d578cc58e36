import PlaneSketch.Binary64

/-! Written numbers: an optional minus, digits, an optional fraction and an optional exponent.
Reading takes the longest numeral in front of a text; the value of a numeral is the double nearest
to its exact value. -/
namespace PlaneSketch

inductive ExponentSign
  | unsigned
  | plus
  | minus
  deriving DecidableEq, Repr

def ExponentSign.chars : ExponentSign → List Char
  | .unsigned => []
  | .plus => ['+']
  | .minus => ['-']

structure Numeral where
  negative : Bool
  whole : List Char
  fraction : Option (List Char)
  exponent : Option (ExponentSign × List Char)
  deriving DecidableEq, Repr

namespace Numeral

def chars (n : Numeral) : List Char :=
  (if n.negative then ['-'] else []) ++ n.whole ++
    (n.fraction.elim [] ('.' :: ·)) ++ (n.exponent.elim [] fun e => 'e' :: e.1.chars ++ e.2)

def readDigits (cs : List Char) : Option (List Char × List Char) :=
  match cs.takeWhile Char.isDigit with
  | [] => none
  | ds => some (ds, cs.dropWhile Char.isDigit)

/-- A whole part has no leading zero. -/
def readWhole (cs : List Char) : Option (List Char × List Char) := do
  let (ds, rest) ← readDigits cs
  if ds.head? = some '0' ∧ ds.length ≠ 1 then none else some (ds, rest)

def readFraction : List Char → Option (Option (List Char) × List Char)
  | '.' :: cs => (readDigits cs).map fun (ds, rest) => (some ds, rest)
  | cs => some (none, cs)

def readSign : List Char → ExponentSign × List Char
  | '+' :: cs => (.plus, cs)
  | '-' :: cs => (.minus, cs)
  | cs => (.unsigned, cs)

def readExponent : List Char → Option (Option (ExponentSign × List Char) × List Char)
  | c :: cs =>
    if c = 'e' ∨ c = 'E' then
      (readDigits (readSign cs).2).map fun (ds, rest) => (some ((readSign cs).1, ds), rest)
    else some (none, c :: cs)
  | [] => some (none, [])

def readMagnitude (negative : Bool) (cs : List Char) : Option (Numeral × List Char) := do
  let (whole, cs) ← readWhole cs
  let (fraction, cs) ← readFraction cs
  let (exponent, cs) ← readExponent cs
  return (⟨negative, whole, fraction, exponent⟩, cs)

/-- The numeral in front of a text and what follows it. -/
def read : List Char → Option (Numeral × List Char)
  | '-' :: cs => readMagnitude true cs
  | cs => readMagnitude false cs

theorem readDigits_length {cs ds rest : List Char} (h : readDigits cs = some (ds, rest)) :
    rest.length < cs.length := by
  have total := congrArg List.length (List.takeWhile_append_dropWhile (p := Char.isDigit) (l := cs))
  rw [List.length_append] at total
  unfold readDigits at h
  split at h
  case h_1 => cases h
  case h_2 none =>
    cases h
    have := List.length_pos_iff.mpr none
    omega

private theorem readSign_length (cs : List Char) : (readSign cs).2.length ≤ cs.length := by
  fun_cases readSign cs <;> simp

private theorem readFraction_length {cs rest : List Char} {f : Option (List Char)}
    (h : readFraction cs = some (f, rest)) : rest.length ≤ cs.length := by
  unfold readFraction at h
  split at h
  · simp only [Option.map_eq_some_iff, Prod.mk.injEq, Prod.exists] at h
    obtain ⟨ds, r, hr, _, rfl⟩ := h
    have := readDigits_length hr
    simp only [List.length_cons]
    omega
  · simp_all

private theorem readExponent_length {cs rest : List Char} {e : Option (ExponentSign × List Char)}
    (h : readExponent cs = some (e, rest)) : rest.length ≤ cs.length := by
  unfold readExponent at h
  split at h
  · split at h
    · rename_i c cs _
      simp only [Option.map_eq_some_iff, Prod.mk.injEq, Prod.exists] at h
      obtain ⟨ds, r, hr, _, rfl⟩ := h
      have := readDigits_length hr
      have := readSign_length cs
      simp only [List.length_cons]
      omega
    · simp_all
  · simp_all

private theorem readMagnitude_length {negative : Bool} {cs rest : List Char} {n : Numeral}
    (h : readMagnitude negative cs = some (n, rest)) : rest.length < cs.length := by
  simp only [readMagnitude, readWhole, Option.bind_eq_bind, Option.bind_eq_some_iff,
    Prod.exists] at h
  obtain ⟨whole, r₁, ⟨ds, r₀, h₀, h₁⟩, fraction, r₂, h₂, exponent, r₃, h₃, h₄⟩ := h
  have digits := readDigits_length h₀
  have fraction := readFraction_length h₂
  have exponent := readExponent_length h₃
  split at h₁
  · cases h₁
  · cases h₁
    cases h₄
    exact Nat.lt_of_le_of_lt (Nat.le_trans exponent fraction) digits

theorem read_length {cs rest : List Char} {n : Numeral} (h : read cs = some (n, rest)) :
    rest.length < cs.length := by
  unfold read at h
  split at h
  · exact Nat.lt_succ_of_lt (readMagnitude_length h)
  · exact readMagnitude_length h

def digitsValue (ds : List Char) : Nat :=
  ds.foldl (fun n c => 10 * n + (c.toNat - '0'.toNat)) 0

/-- All digits, those of the fraction included. -/
def digits (n : Numeral) : List Char := n.whole ++ n.fraction.getD []

/-- The power of ten that the last digit counts. -/
def scale (n : Numeral) : Int :=
  (n.exponent.elim 0 fun e =>
    if e.1 = .minus then -(digitsValue e.2 : Int) else (digitsValue e.2 : Int)) -
      (n.fraction.getD []).length

/-- The nearest magnitude. Numerals far outside the range of doubles are decided by the place of
their first digit alone. -/
def magnitude (n : Numeral) : Nat :=
  let d := digitsValue n.digits
  let places := ((Nat.toDigits 10 d).length : Int) + n.scale
  if d = 0 ∨ places < -400 then 0
  else if 400 < places then Binary64.infinity
  else Binary64.nearest (d * tenTo n.scale.toNat) (tenTo (-n.scale).toNat)

/-- The double that a numeral stands for, unless its magnitude is out of range. -/
def toFloat? (n : Numeral) : Option Float :=
  if n.magnitude < Binary64.infinity then some (Binary64.toFloat n.negative n.magnitude) else none

/-- The value of a plain whole numeral below `2 ^ 64`. -/
def toNat? (n : Numeral) : Option Nat :=
  match n with
  | ⟨false, whole, none, none⟩ =>
    if digitsValue whole < twoTo 64 then some (digitsValue whole) else none
  | _ => none

def ofNat (n : Nat) : Numeral := ⟨false, Nat.toDigits 10 n, none, none⟩

end Numeral

end PlaneSketch
