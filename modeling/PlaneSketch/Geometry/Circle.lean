import PlaneSketch.Geometry.Angle
import PlaneSketch.Geometry.Line

/-! Circles, arcs and the nearest point of a figure. -/
namespace PlaneSketch

open Scalar

variable {α : Type} [Scalar α]

namespace Circle

/-- Distance from `p` to the boundary. -/
def distance (c : Circle α) (p : Point α) : α := abs (c.c.distance p - c.r)

/-- The point of the boundary in the direction of `p`, the top if `p` is the center. -/
def project (c : Circle α) (p : Point α) : Point α := c.c.toward p c.r

def contains (c : Circle α) (p : Point α) : Bool := decide (c.c.distance p ≤ c.r)

/-- Whether the segment crosses the circle or lies inside. -/
def meets (c : Circle α) (l : Line α) : Bool := decide (l.segmentDistance c.c ≤ c.r)

end Circle

/-- The point of the arc in the direction of `p`, or else the nearer boundary point. -/
def Arc.project (a : Arc α) (p : Point α) : Point α :=
  let angle := if a.c.coincides p then halfPi else p.angleFrom a.c
  if a.covers angle then a.circle.project p
  else if p.distance a.p0 < p.distance a.p1 then a.p0
  else a.p1

def Figure.agrees (f g : Figure α) : Bool := decide (f.kind = g.kind) && f.toList == g.toList

def Figure.nearest (figure : Figure α) (p : Point α) : Point α :=
  match figure with
  | .point q => q
  | .line l => l.projectSegment p
  | .circle c => c.project p
  | .arc a => a.project p

/-- Points that lie inside a rectangle only if the figure does: endpoints, and where a curve is
furthest in each direction of the axes. -/
def Figure.extremes : Figure α → List (Point α)
  | .point p => [p]
  | .line l => [l.p0, l.p1]
  | .circle c => quarterTurns.map fun angle => c.c.atAngle c.r angle
  | .arc a =>
    [a.p0, a.p1] ++ (quarterTurns.filter a.covers).map fun angle => a.c.atAngle a.r angle

end PlaneSketch
