import PlaneSketch.Relation.Constraint
import PlaneSketch.Relation.Forced

/-! The six relations between figures. -/
namespace PlaneSketch

inductive Relation
  /-- The point is halfway between the endpoints. -/
  | midpoint (point : Point Variable) (line : Line Variable)
  | equalValues (vs : List Variable)
  | colinearPoints (points : List (Point Variable))
  | pointOnCircle (point : Point Variable) (circle : Circle Variable)
  /-- The lines are equally long; each is rescaled about its midpoint. -/
  | equalLength (lines : List (Line Variable))
  /-- The infinite line touches the circle. -/
  | tangentLine (line : Line Variable) (circle : Circle Variable)
  deriving DecidableEq, Repr

namespace Relation

def kind : Relation → RelationKind
  | .midpoint .. => .midpoint
  | .equalValues .. => .equalValues
  | .colinearPoints .. => .colinearPoints
  | .pointOnCircle .. => .pointOnCircle
  | .equalLength .. => .equalLength
  | .tangentLine .. => .tangentLine

def owned : Relation → List Variable
  | .midpoint point line => point.toList ++ line.toList
  | .equalValues vs => vs
  | .colinearPoints points => points.flatMap Point.toList
  | .pointOnCircle point circle => point.toList ++ circle.toList
  | .equalLength lines => lines.flatMap Line.toList
  | .tangentLine line circle => line.toList ++ circle.toList

def operands : Relation → List Operand
  | .midpoint point line => [.figure (.point point), .figure (.line line)]
  | .equalValues vs => vs.map .bare
  | .colinearPoints points => points.map fun p => .figure (.point p)
  | .pointOnCircle point circle => [.figure (.point point), .figure (.circle circle)]
  | .equalLength lines => lines.map fun l => .figure (.line l)
  | .tangentLine line circle => [.figure (.line line), .figure (.circle circle)]

section

open Scalar Delta

variable {α : Type} [Scalar α]

/-- The mean of numbers, at least one. -/
def mean (values : List α) : α := sum values / ofNat values.length

/-- The changes that rescale a line about its midpoint to twice the length `half`. -/
def rescale (s : Store α) (half : α) (line : Line Variable) : List (Delta α) :=
  let l := s.line line
  let center := l.p0.midpoint l.p1
  let step := l.vector.direction.scale half
  towardPoint s line.p0 (center - step) ++ towardPoint s line.p1 (center + step)

def deltas (s : Store α) : Relation → List (Delta α)
  | .midpoint point line =>
    let p := s.point point
    let l := s.line line
    towardPoint s point (l.p0.midpoint l.p1) ++ towardPoint s line.p1 (l.p0.reflect p) ++
      towardPoint s line.p0 (l.p1.reflect p)
  | .equalValues vs =>
    let goal := mean (vs.map s.value)
    vs.map fun v => toward s v goal
  | .colinearPoints points =>
    if points.length < 3 then []
    else
      let line := s.fittedLine points
      points.flatMap fun p => towardPoint s p (line.project (s.point p))
  | .pointOnCircle point circle =>
    let p := s.point point
    let c := s.circle circle
    towardPoint s point (c.project p) ++ towardPoint s circle.c (p.toward c.c c.r) ++
      [toward s circle.r (c.c.distance p)]
  | .equalLength lines =>
    let half := mean (lines.map fun l => (s.line l).length) / 2
    lines.flatMap (rescale s half)
  | .tangentLine line circle =>
    let l := s.line line
    let c := s.circle circle
    let foot := l.project c.c
    let gap := foot.distance c.c
    let offset := (c.c - foot).direction.scale (gap - c.r)
    toward s circle.r gap :: towardPoint s circle.c (c.c - offset) ++
      towardPoint s line.p0 (l.p0 + offset) ++ towardPoint s line.p1 (l.p1 + offset)

def error (s : Store α) : Relation → α
  | .midpoint point line =>
    let l := s.line line
    (s.point point).distance (l.p0.midpoint l.p1)
  | .equalValues vs => spread (vs.map s.value)
  | .colinearPoints points =>
    if points.length < 3 then 0
    else
      let line := s.fittedLine points
      sum (points.map fun p => line.distance (s.point p))
  | .pointOnCircle point circle => (s.circle circle).distance (s.point point)
  | .equalLength lines =>
    if lines.isEmpty then 0
    else
      let lengths := lines.map fun l => (s.line l).length
      let middle := mean lengths
      sum (lengths.map fun length => abs (length - middle))
  | .tangentLine line circle =>
    let c := s.circle circle
    abs (((s.line line).project c.c).distance c.c - c.r)

end

instance : Related Relation := ⟨kind, owned, operands⟩

instance {α : Type} [Scalar α] : Constraint α Relation := ⟨deltas, error⟩

end Relation

end PlaneSketch
