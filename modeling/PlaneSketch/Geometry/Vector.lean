import PlaneSketch.Scalar
import PlaneSketch.Shape

/-! Points of the plane as vectors. -/
namespace PlaneSketch.Point

open Scalar

variable {α : Type} [Scalar α]

def add (v w : Point α) : Point α := ⟨v.x + w.x, v.y + w.y⟩

def sub (v w : Point α) : Point α := ⟨v.x - w.x, v.y - w.y⟩

def scale (v : Point α) (k : α) : Point α := ⟨v.x * k, v.y * k⟩

def divide (v : Point α) (k : α) : Point α := ⟨v.x / k, v.y / k⟩

instance : Add (Point α) := ⟨add⟩

instance : Sub (Point α) := ⟨sub⟩

def origin : Point α := ⟨0, 0⟩

def coincides (p q : Point α) : Bool := p.x == q.x && p.y == q.y

def dot (v w : Point α) : α := v.x * w.x + v.y * w.y

def normSquared (v : Point α) : α := v.dot v

def norm (v : Point α) : α := sqrt v.normSquared

/-- The unit vector along `v`; the zero vector points up. -/
def direction (v : Point α) : Point α :=
  let length := v.norm
  if length == 0 then ⟨0, 1⟩ else v.divide length

def distance (p q : Point α) : α := (p - q).norm

def approxEq (v w : Point α) : Bool := decide ((v - w).normSquared < epsilon * epsilon)

/-- The mean of the points, the origin if there is none. -/
def mean (points : List (Point α)) : Point α :=
  if points.isEmpty then origin
  else (points.foldl (· + ·) origin).divide (ofNat points.length)

def midpoint (p q : Point α) : Point α := mean [p, q]

def reflect (p pivot : Point α) : Point α := pivot.scale 2 - p

def toward (start goal : Point α) (length : α) : Point α :=
  start + (goal - start).direction.scale length

/-- Strictly inside the upright rectangle spanned by two corners. -/
def within (corner0 corner1 p : Point α) : Bool :=
  between corner0.x corner1.x p.x && between corner0.y corner1.y p.y
where
  between (a b v : α) : Bool := decide (v < a ∧ b < v) || decide (a < v ∧ v < b)

end PlaneSketch.Point
