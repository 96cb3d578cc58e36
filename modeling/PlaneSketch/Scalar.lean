/-! Numbers that a sketch is computed with. Geometry, relations and the solver are written once over
`Scalar`; doubles run them, and exact numbers state what they mean. No law is assumed, so every
expression keeps the order in which its operations are written. -/
namespace PlaneSketch

class Scalar (α : Type) extends Add α, Sub α, Mul α, Div α, Neg α, LT α, LE α, BEq α where
  ofNat : Nat → α
  pi : α
  abs : α → α
  sqrt : α → α
  sin : α → α
  cos : α → α
  /-- Angle of the vector whose vertical part comes first. -/
  atan2 : α → α → α
  /-- Remainder of truncated division, with the sign of the dividend. -/
  truncMod : α → α → α
  isNaN : α → Bool
  isFinite : α → Bool
  decLt : DecidableLT α
  decLe : DecidableLE α

namespace Scalar

attribute [reducible, instance] decLt decLe

variable {α : Type} [Scalar α]

-- Below the numerals that a type has anyway.
instance (priority := 50) numeral (n : Nat) : OfNat α n := ⟨ofNat n⟩

instance (priority := low) : Inhabited α := ⟨ofNat 0⟩

/-- Sum from the left, started from negative zero, which keeps the sign of a zero sum. -/
def sum (xs : List α) : α := xs.foldl (· + ·) (-0)

/-- The larger number; a number that is not comparable gives way to the other one. -/
def max (a b : α) : α := if isNaN a = true ∨ a < b then b else a

def min (a b : α) : α := if isNaN a = true ∨ b < a then b else a

/-- Largest minus smallest of the comparable numbers, zero if there is none. -/
def spread (xs : List α) : α :=
  match xs.filter fun x => !isNaN x with
  | [] => 0
  | x :: rest => rest.foldl max x - rest.foldl min x

/-- The representative of `x` modulo a positive `period` that is not negative. Rounding may
return `period` itself. -/
def wrap (x period : α) : α :=
  let r := truncMod x period
  if r < 0 then r + period else r

def halfPi : α := pi / 2

def twoPi : α := pi * 2

def epsilon : α := 1 / 1000000

def approxEq (a b : α) : Bool := decide (abs (a - b) < epsilon)

end Scalar

end PlaneSketch
