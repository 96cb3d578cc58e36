import PlaneSketch.Numeral.Layout

/-! The four shapes of a sketch, over whatever stands for a coordinate or a radius: a number, a
variable, or the index of a cell in a document. The positions of a shape have a fixed order. -/
namespace PlaneSketch

structure Point (κ : Type) where
  x : κ
  y : κ
  deriving DecidableEq, Repr

structure Line (κ : Type) where
  p0 : Point κ
  p1 : Point κ
  deriving DecidableEq, Repr

structure Circle (κ : Type) where
  c : Point κ
  r : κ
  deriving DecidableEq, Repr

/-- An arc of the circle given by `c` and `r`, running counterclockwise. The boundary points give
its angles only; they need not lie on the circle. -/
structure Arc (κ : Type) where
  c : Point κ
  r : κ
  p0 : Point κ
  p1 : Point κ
  deriving DecidableEq, Repr

inductive Figure (κ : Type)
  | point (p : Point κ)
  | line (l : Line κ)
  | circle (c : Circle κ)
  | arc (a : Arc κ)
  deriving DecidableEq, Repr

inductive FigureKind
  | point
  | line
  | circle
  | arc
  deriving DecidableEq, Repr

def FigureKind.name : FigureKind → String
  | .point => "point"
  | .line => "line"
  | .circle => "circle"
  | .arc => "arc"

variable {κ μ : Type}

def Point.toList (p : Point κ) : List κ := [p.x, p.y]

def Line.toList (l : Line κ) : List κ := l.p0.toList ++ l.p1.toList

def Circle.toList (c : Circle κ) : List κ := c.c.toList ++ [c.r]

def Arc.toList (a : Arc κ) : List κ := a.c.toList ++ [a.r] ++ a.p0.toList ++ a.p1.toList

def Arc.circle (a : Arc κ) : Circle κ := ⟨a.c, a.r⟩

def Point.map (f : κ → μ) (p : Point κ) : Point μ := ⟨f p.x, f p.y⟩

def Line.map (f : κ → μ) (l : Line κ) : Line μ := ⟨l.p0.map f, l.p1.map f⟩

def Circle.map (f : κ → μ) (c : Circle κ) : Circle μ := ⟨c.c.map f, f c.r⟩

def Arc.map (f : κ → μ) (a : Arc κ) : Arc μ := ⟨a.c.map f, f a.r, a.p0.map f, a.p1.map f⟩

section Traversal

variable {m : Type → Type} [Monad m]

def Point.mapM (f : κ → m μ) (p : Point κ) : m (Point μ) := return ⟨← f p.x, ← f p.y⟩

def Line.mapM (f : κ → m μ) (l : Line κ) : m (Line μ) := return ⟨← l.p0.mapM f, ← l.p1.mapM f⟩

def Circle.mapM (f : κ → m μ) (c : Circle κ) : m (Circle μ) := return ⟨← c.c.mapM f, ← f c.r⟩

def Arc.mapM (f : κ → m μ) (a : Arc κ) : m (Arc μ) :=
  return ⟨← a.c.mapM f, ← f a.r, ← a.p0.mapM f, ← a.p1.mapM f⟩

end Traversal

namespace Figure

def kind : Figure κ → FigureKind
  | .point _ => .point
  | .line _ => .line
  | .circle _ => .circle
  | .arc _ => .arc

def toList : Figure κ → List κ
  | .point p => p.toList
  | .line l => l.toList
  | .circle c => c.toList
  | .arc a => a.toList

def map (f : κ → μ) : Figure κ → Figure μ
  | .point p => .point (p.map f)
  | .line l => .line (l.map f)
  | .circle c => .circle (c.map f)
  | .arc a => .arc (a.map f)

def mapM {m : Type → Type} [Monad m] (f : κ → m μ) : Figure κ → m (Figure μ)
  | .point p => return .point (← p.mapM f)
  | .line l => return .line (← l.mapM f)
  | .circle c => return .circle (← c.mapM f)
  | .arc a => return .arc (← a.mapM f)

/-- The points that a figure is composed of. A point has no parts. -/
def parts : Figure κ → List (Point κ)
  | .point _ => []
  | .line l => [l.p0, l.p1]
  | .circle c => [c.c]
  | .arc a => [a.c, a.p0, a.p1]

/-- A circle, or the full circle that an arc lies on. -/
def asCircle? : Figure κ → Option (Circle κ)
  | .circle c => some c
  | .arc a => some a.circle
  | _ => none

@[simp] theorem toList_map (f : κ → μ) (figure : Figure κ) :
    (figure.map f).toList = figure.toList.map f := by
  cases figure <;> rfl

@[simp] theorem kind_map (f : κ → μ) (figure : Figure κ) : (figure.map f).kind = figure.kind := by
  cases figure <;> rfl

end Figure

/-! Figures as people read them. -/

def Point.text (p : Point Float) : String :=
  "Point(" ++ messageText p.x ++ ", " ++ messageText p.y ++ ")"

def Line.text (l : Line Float) : String := "Line(" ++ l.p0.text ++ " -> " ++ l.p1.text ++ ")"

def Circle.text (c : Circle Float) : String :=
  "Circle(" ++ c.c.text ++ ", r=" ++ messageText c.r ++ ")"

def Arc.text (a : Arc Float) : String :=
  "Arc(" ++ a.c.text ++ ", r=" ++ messageText a.r ++ ", " ++ a.p0.text ++ " -> " ++ a.p1.text ++ ")"

def Figure.text : Figure Float → String
  | .point p => "Point(" ++ p.text ++ ")"
  | .line l => "Line(" ++ l.text ++ ")"
  | .circle c => "Circle(" ++ c.text ++ ")"
  | .arc a => "Arc(" ++ a.text ++ ")"

end PlaneSketch
