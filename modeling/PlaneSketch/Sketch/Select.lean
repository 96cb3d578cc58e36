import PlaneSketch.Sketch

/-! Finding figures with a pointer. -/
namespace PlaneSketch

/-- Figures that win over others within reach have a lower priority number. -/
def FigureKind.priority : FigureKind → Nat
  | .point => 1
  | .line => 2
  | .circle | .arc => 3

structure Pick (α : Type) where
  id : EntityId
  distance : α
  position : Point α
  deriving Repr

namespace Sketch

variable {α ρ : Type} [Scalar α]

/-- The figure as a candidate, with its priority, if it is within reach. -/
def candidate? (s : Store α) (query : Point α) (radius : α) (entity : Entity) :
    Option (Nat × Pick α) :=
  let nearest := (s.figure entity.figure).nearest query
  let distance := nearest.distance query
  if distance ≤ radius then some (entity.figure.kind.priority, ⟨entity.id, distance, nearest⟩)
  else none

def precedes (a b : Nat × Pick α) : Bool :=
  decide (a.1 < b.1) || (a.1 == b.1 && decide (a.2.distance < b.2.distance))

def better (best next : Nat × Pick α) : Nat × Pick α := if precedes next best then next else best

/-- The best figure within `radius` of `query`: by priority, then by distance, then by order. -/
def pick? (sketch : Sketch α ρ) (s : Store α) (query : Point α) (radius : α) : Option (Pick α) :=
  match sketch.entities.filterMap (candidate? s query radius) with
  | [] => none
  | first :: rest => some (rest.foldl better first).2

/-- The figures that lie strictly inside a rectangle, in the order of the sketch. -/
def selectWithin (sketch : Sketch α ρ) (s : Store α) (corner0 corner1 : Point α) : List EntityId :=
  (sketch.entities.filter fun e =>
    (s.figure e.figure).extremes.all (Point.within corner0 corner1)).map Entity.id

end Sketch

end PlaneSketch
