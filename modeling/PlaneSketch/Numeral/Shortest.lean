import PlaneSketch.Binary64

/-! Decimal digits of a magnitude: the fewest that read back as the same double, and a fixed
number of them. All comparisons are between integers. -/
namespace PlaneSketch

/-- Which of two equally near integers a half goes to. -/
inductive Tie
  | toEven
  | up
  deriving DecidableEq, Repr

def Tie.round : Tie → Nat → Nat → Nat
  | .toEven, num, den => Binary64.roundHalfEven num den
  | .up, num, den => (2 * num + den) / (2 * den)

/-- The nearest of the two integers around `num / den` of those that will do. -/
def Tie.choose? (tie : Tie) (num den : Nat) : Bool → Bool → Option Nat
  | true, true => some (tie.round num den)
  | true, false => some (num / den)
  | false, true => some (num / den + 1)
  | false, false => none

/-- Digits of which the first counts `10 ^ lead`. -/
structure Decimal where
  digits : List Char
  lead : Int
  deriving DecidableEq, Repr

namespace Decimal

/-- The largest `k` with `10 ^ k ≤ num / den`, both positive. -/
def floorLog10 (num den : Nat) : Int :=
  if den ≤ num then (Nat.toDigits 10 (num / den)).length - 1
  else -((Nat.toDigits 10 ((den + num - 1) / num - 1)).length : Int)

/-- A positive finite magnitude as a fraction in units of `10 ^ place`. -/
def inUnits (b : Nat) (place : Int) : Nat × Nat :=
  let q := Binary64.exponent b
  (Binary64.mantissa b * twoTo q.toNat * tenTo (-place).toNat, twoTo (-q).toNat * tenTo place.toNat)

/-- Whether `d * 10 ^ place` lies in the interval that rounds to magnitude `b`. The interval ends
halfway to the neighbours, of which the lower one is nearer below a power of two; the ends belong
to it when the mantissa is even. -/
def readsBack (b : Nat) (place : Int) (d : Nat) : Bool :=
  let (num, den) := inUnits b place
  let step := num / Binary64.mantissa b
  let below := if Binary64.mantissa b = twoTo 52 ∧ twoTo 53 ≤ b then step else 2 * step
  let slack := if Binary64.mantissa b % 2 = 0 then 0 else 1
  4 * num + slack ≤ 4 * d * den + below ∧ 4 * d * den + slack ≤ 4 * num + 2 * step

/-- The multiple of `10 ^ place` nearest to magnitude `b` among those that read back as `b`. -/
def candidate? (tie : Tie) (b : Nat) (place : Int) : Option Nat :=
  let (num, den) := inUnits b place
  tie.choose? num den (readsBack b place (num / den)) (readsBack b place (num / den + 1))

def ofMultiple (d : Nat) (place : Int) : Decimal :=
  let digits := Nat.toDigits 10 d
  ⟨digits, place + digits.length - 1⟩

def leadOf (b : Nat) : Int :=
  let (num, den) := inUnits b 0
  floorLog10 num den

/-- The fewest digits that read back as magnitude `b`: the coarsest place at which a multiple
does. -/
def shortest (tie : Tie) (b : Nat) : Decimal :=
  if b = 0 then ⟨['0'], 0⟩ else
    let places := (List.range 20).map fun i : Nat => leadOf b + 1 - i
    (places.findSome? fun place => (candidate? tie b place).map (ofMultiple · place)).getD ⟨['0'], 0⟩

/-- Magnitude `b` with `count + 1` digits, a half to the even digit. -/
def rounded (count : Nat) (b : Nat) : Decimal :=
  if b = 0 then ⟨List.replicate (count + 1) '0', 0⟩ else
    let place := leadOf b - count
    let (num, den) := inUnits b place
    let digits := Nat.toDigits 10 (Tie.toEven.round num den)
    ⟨digits.take (count + 1), place + digits.length - 1⟩

end Decimal

end PlaneSketch
