import PlaneSketch.Store.Copy
import PlaneSketch.Geometry.Circle

/-! Figures made of variables: reading, moving and building them in a store. Two figures are the
same if they are made of the same variables. -/
namespace PlaneSketch

namespace Figure

/-- The variables along the first axis; a radius lies along none. -/
def xs : Figure Variable → List Variable
  | .point p => [p.x]
  | .line l => [l.p0.x, l.p1.x]
  | .circle c => [c.c.x]
  | .arc a => [a.c.x, a.p0.x, a.p1.x]

def ys : Figure Variable → List Variable
  | .point p => [p.y]
  | .line l => [l.p0.y, l.p1.y]
  | .circle c => [c.c.y]
  | .arc a => [a.c.y, a.p0.y, a.p1.y]

end Figure

def Line.horizontalLinks (l : Line Variable) : List (Variable × Variable) := [(l.p1.y, l.p0.y)]

def Line.verticalLinks (l : Line Variable) : List (Variable × Variable) := [(l.p1.x, l.p0.x)]

def Point.coincidentLinks (p q : Point Variable) : List (Variable × Variable) :=
  [(q.x, p.x), (q.y, p.y)]

namespace Store

variable {α : Type} [Scalar α]

def point (s : Store α) (p : Point Variable) : Point α := p.map s.value

def line (s : Store α) (l : Line Variable) : Line α := l.map s.value

def circle (s : Store α) (c : Circle Variable) : Circle α := c.map s.value

def arc (s : Store α) (a : Arc Variable) : Arc α := a.map s.value

def figure (s : Store α) (f : Figure Variable) : Figure α := f.map s.value

def holdsPoint (s : Store α) (p : Point Variable) : Bool := s.isConstant p.x || s.isConstant p.y

def isFixed (s : Store α) (f : Figure Variable) : Bool := f.toList.all s.isConstant

def setFigureConstant (s : Store α) (f : Figure Variable) (constant : Bool) : Store α :=
  f.toList.foldl (fun s v => s.setConstant v constant) s

def place (s : Store α) (p : Point Variable) (position : Point α) : Store α :=
  (s.setValue p.x position.x).setValue p.y position.y

/-- Move a figure by the step from `start` to `goal`: every cell once along each axis. -/
def translate (s : Store α) (f : Figure Variable) (start goal : Point α) : Store α :=
  (s.shiftCells f.xs (goal.x - start.x)).shiftCells f.ys (goal.y - start.y)

/-- Move a figure by the step between two points of the store. How far the second one lies along the
second axis is read after the figure has been moved along the first one. -/
def translateBetween (s : Store α) (f : Figure Variable) (start goal : Point Variable) : Store α :=
  let along := s.shiftCells f.xs (s.value goal.x - s.value start.x)
  along.shiftCells f.ys (along.value goal.y - along.value start.y)

/-- Move the free coordinates of a boundary point onto the circle, at its present angle. -/
def snapPoint (a : Arc Variable) (s : Store α) (p : Point Variable) : Store α :=
  let c := s.point a.c
  let target := c.atAngle (s.value a.r) ((s.point p).angleFrom c)
  let s := if s.isConstant p.x then s else s.setValue p.x target.x
  if s.isConstant p.y then s else s.setValue p.y target.y

def snap (s : Store α) (a : Arc Variable) : Store α := [a.p0, a.p1].foldl (snapPoint a) s

def build (f : Figure α) : StateM (Store α) (Figure Variable) := f.mapM fun value => fresh value false

def lineThrough (p0 p1 : Point Variable) : StateM (Store α) (Line Variable) :=
  copying (Line.mapM copyAmong ⟨p0, p1⟩)

def circleAbout (c : Point Variable) (radius : α) : StateM (Store α) (Circle Variable) :=
  return ⟨← copying (c.mapM copyAmong), ← fresh radius false⟩

/-- An arc through copies of three points, whose radius is the distance from `c` to `p0`. -/
def arcThrough (c p0 p1 : Point Variable) : StateM (Store α) (Arc Variable) := do
  let radius := ((← get).point c).distance ((← get).point p0)
  let r : StateM (Store α) Variable := fresh radius false
  copying do
    return ⟨← c.mapM copyAmong, ← r, ← p0.mapM copyAmong, ← p1.mapM copyAmong⟩

end Store

end PlaneSketch
