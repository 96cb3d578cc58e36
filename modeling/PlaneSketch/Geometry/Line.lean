import PlaneSketch.Geometry.Vector

/-! Lines and segments: lengths, projections, the turn of three points and where segments meet. -/
namespace PlaneSketch

open Scalar

variable {α : Type} [Scalar α]

inductive Turn
  | straight
  | clockwise
  | counterclockwise
  deriving DecidableEq, Repr

def Turn.signum : Turn → Int
  | .straight => 0
  | .clockwise => 1
  | .counterclockwise => -1

/-- Below this cross product, in squared sketch units, three points count as straight. -/
def straightTolerance : α := 1 / 10

def turn (p0 p1 p2 : Point α) : Turn :=
  let cross := (p1.y - p0.y) * (p2.x - p1.x) - (p1.x - p0.x) * (p2.y - p1.y)
  if abs cross < straightTolerance then .straight
  else if 0 < cross then .clockwise
  else .counterclockwise

namespace Line

def length (l : Line α) : α := l.p0.distance l.p1

def vector (l : Line α) : Point α := l.p1 - l.p0

def ofCoords (x0 y0 x1 y1 : α) : Line α := ⟨⟨x0, y0⟩, ⟨x1, y1⟩⟩

/-- How far along the line the projection of `p` lies, 0 at `p0` and 1 at `p1`. It is not a number
if the line has no length, unless `p` is an endpoint. -/
def factor (l : Line α) (p : Point α) : α :=
  if l.p0.coincides p then 0
  else if l.p1.coincides p then 1
  else
    let d := l.p0 - l.p1
    let shadow := -((p - l.p0).dot d)
    shadow / d.normSquared

def along (l : Line α) (r : α) : Point α := l.p0 + (l.p1 - l.p0).scale r

/-- The point of the infinite line nearest to `p`; `p0` if the line has no length. -/
def project (l : Line α) (p : Point α) : Point α :=
  let r := l.factor p
  if isNaN r then l.along 0 else l.along r

/-- The point of the segment nearest to `p`; `p1` if the segment has no length. -/
def projectSegment (l : Line α) (p : Point α) : Point α :=
  let r := l.factor p
  if r < 0 then l.along 0
  else if 1 < r ∨ isNaN r = true then l.along 1
  else l.along r

def distance (l : Line α) (p : Point α) : α := p.distance (l.project p)

def segmentDistance (l : Line α) (p : Point α) : α := p.distance (l.projectSegment p)

/-- Whether `p` lies in the upright rectangle around the segment. -/
def boxContains (l : Line α) (p : Point α) : Bool :=
  decide (p.x ≤ max l.p0.x l.p1.x ∧ min l.p0.x l.p1.x ≤ p.x ∧
    p.y ≤ max l.p0.y l.p1.y ∧ min l.p0.y l.p1.y ≤ p.y)

/-- Whether two segments touch or cross. A segment without length meets none. -/
def meets (l m : Line α) : Bool :=
  if l.length == 0 || m.length == 0 then false
  else
    let t0 := turn l.p0 l.p1 m.p0
    let t1 := turn l.p0 l.p1 m.p1
    let t2 := turn m.p0 m.p1 l.p0
    let t3 := turn m.p0 m.p1 l.p1
    (t0 != t1 && t2 != t3) ||
      (t0 == .straight && l.boxContains m.p0) || (t1 == .straight && l.boxContains m.p1) ||
      (t2 == .straight && m.boxContains l.p0) || (t3 == .straight && m.boxContains l.p1)

end Line

end PlaneSketch
