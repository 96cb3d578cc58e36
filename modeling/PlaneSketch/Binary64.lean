import PlaneSketch.Scalar

/-! Doubles as exact dyadic numbers. The magnitude of a finite double is numbered by its bits, in
increasing order: number `b` stands for `mantissa b * 2 ^ exponent b`. Reading and writing decimals
and the exact remainder are arithmetic on these numbers. -/
namespace PlaneSketch

def twoTo (n : Nat) : Nat := Nat.pow 2 n

def tenTo (n : Nat) : Nat := Nat.pow 10 n

namespace Binary64

def mantissa (b : Nat) : Nat := b - (b / twoTo 52 - 1) * twoTo 52

def exponent (b : Nat) : Int := ((b / twoTo 52 - 1 : Nat) : Int) - 1074

/-- The number after the last finite magnitude. -/
def infinity : Nat := 2047 * twoTo 52

def roundHalfEven (num den : Nat) : Nat :=
  let q := num / den
  let r := num % den
  if 2 * r < den ∨ (2 * r = den ∧ q % 2 = 0) then q else q + 1

/-- The largest `k` with `2 ^ k ≤ num / den`, both positive. -/
def floorLog2 (num den : Nat) : Int :=
  let k : Int := (num.log2 : Int) - den.log2
  if den * twoTo k.toNat ≤ num * twoTo (-k).toNat then k else k - 1

/-- The magnitude nearest to `num / den`. A mantissa rounded up to `2 ^ 53` carries into the
next exponent, since consecutive magnitudes have consecutive numbers; results from `infinity` on
are out of range. -/
def nearest (num den : Nat) : Nat :=
  if num = 0 then 0 else
    let q := max (floorLog2 num den - 52) (-1074)
    (q + 1074).toNat * twoTo 52 + roundHalfEven (num * twoTo (-q).toNat) (den * twoTo q.toNat)

def toFloat (negative : Bool) (b : Nat) : Float :=
  Float.ofBits (UInt64.ofNat ((if negative then twoTo 63 else 0) + min b infinity))

def magnitude (x : Float) : Nat := x.toBits.toNat % twoTo 63

def isNegative (x : Float) : Bool := x.toBits.toNat / twoTo 63 == 1

def remainder (a b : Nat) : Nat :=
  let e := min (exponent a) (exponent b)
  let r := (mantissa a * twoTo (exponent a - e).toNat) % (mantissa b * twoTo (exponent b - e).toNat)
  nearest (r * twoTo e.toNat) (twoTo (-e).toNat)

def truncMod (x y : Float) : Float :=
  if x.isNaN || y.isNaN || x.isInf || y == 0 then 0.0 / 0.0
  else if y.isInf then x
  else toFloat (isNegative x) (remainder (magnitude x) (magnitude y))

end Binary64

instance : Scalar Float where
  ofNat := Float.ofNat
  pi := 3.141592653589793
  abs := Float.abs
  sqrt := Float.sqrt
  sin := Float.sin
  cos := Float.cos
  atan2 := Float.atan2
  truncMod := Binary64.truncMod
  isNaN := Float.isNaN
  isFinite := Float.isFinite
  decLt := inferInstance
  decLe := inferInstance

end PlaneSketch
