import PlaneSketch.Geometry.Vector

/-! Angles in radians and the directions between two of them. -/
namespace PlaneSketch

open Scalar

variable {α : Type} [Scalar α]

def Point.angleFrom (p pivot : Point α) : α := atan2 (p - pivot).y (p - pivot).x

def Point.atAngle (pivot : Point α) (radius angle : α) : Point α :=
  ⟨pivot.x + cos angle * radius, pivot.y + sin angle * radius⟩

/-- Whether `angle` lies from `start` on and before `stop`, going up, when angles count modulo
`period`. The interval may cross the seam. -/
def isBetweenModulo (period start stop angle : α) : Bool :=
  decide (wrap (angle - start) period < wrap (stop - start) period)

def isAngleBetween (start stop angle : α) : Bool := isBetweenModulo twoPi start stop angle

def quarterTurns : List α := [0, halfPi, pi, 3 * halfPi]

namespace Arc

def startAngle (a : Arc α) : α := a.p0.angleFrom a.c

def stopAngle (a : Arc α) : α := a.p1.angleFrom a.c

def covers (a : Arc α) (angle : α) : Bool := isAngleBetween a.startAngle a.stopAngle angle

def ofAngles (c : Point α) (radius start stop : α) : Arc α :=
  ⟨c, radius, c.atAngle radius start, c.atAngle radius stop⟩

def ofPoints (c p0 p1 : Point α) : Arc α := ⟨c, c.distance p0, p0, p1⟩

end Arc

end PlaneSketch
