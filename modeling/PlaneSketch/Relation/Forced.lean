import PlaneSketch.Store.Placement
import PlaneSketch.Geometry.Regression

/-! The line that points are to lie on. Pins and links may force it; otherwise it is fitted. -/
namespace PlaneSketch.Store

variable {α : Type} [Scalar α]

/-- The line through the first two points that are constant in the same coordinate. `firstX` and
`firstY` are the points found constant so far; `x` is looked at before `y`. -/
def pinnedLine? (s : Store α) (firstX firstY : Option (Point α)) :
    List (Point Variable) → Option (Line α)
  | [] => none
  | p :: rest =>
    let q := s.point p
    match firstX, s.isConstant p.x with
    | some first, true => some ⟨first, q⟩
    | firstX, xConstant =>
      match firstY, s.isConstant p.y with
      | some first, true => some ⟨first, q⟩
      | firstY, yConstant =>
        pinnedLine? s (if xConstant then some q else firstX) (if yConstant then some q else firstY)
          rest

/-- The points that `pinnedLine?` draws its line through. -/
def pinnedPair? (s : Store α) (firstX firstY : Option (Point Variable)) :
    List (Point Variable) → Option (Point Variable × Point Variable)
  | [] => none
  | p :: rest =>
    match firstX, s.isConstant p.x with
    | some first, true => some (first, p)
    | firstX, xConstant =>
      match firstY, s.isConstant p.y with
      | some first, true => some (first, p)
      | firstY, yConstant =>
        pinnedPair? s (if xConstant then some p else firstX) (if yConstant then some p else firstY) rest

/-- The vertical or horizontal line that linked coordinates of two points force, at the mean. -/
def sharedLine? (s : Store α) (center : Point α) (p q : Point Variable) : Option (Line α) :=
  if s.isLinked p.x q.x then some (.ofCoords center.x (s.value p.y) center.x (s.value q.y))
  else if s.isLinked p.y q.y then some (.ofCoords (s.value p.x) center.y (s.value q.x) center.y)
  else none

/-- All ordered pairs of different entries, by the first entry and then by the second. -/
def orderedPairs {β : Type} (xs : List β) : List (β × β) :=
  xs.zipIdx.flatMap fun (x, i) =>
    (xs.zipIdx.filter fun (_, j) => i != j).map fun (y, _) => (x, y)

def linkedLine? (s : Store α) (points : List (Point Variable)) : Option (Line α) :=
  (orderedPairs points).findSome? fun (p, q) => s.sharedLine? (Point.mean (points.map s.point)) p q

/-- Pins come before links. -/
def forcedLine? (s : Store α) (points : List (Point Variable)) : Option (Line α) :=
  (s.pinnedLine? none none points).or (s.linkedLine? points)

/-- Draw the forced line into the store: through copies of the two points that pins single out, or
with new coordinates. -/
def drawForced (points : List (Point Variable)) : StateM (Store α) (Option (Line Variable)) := do
  let s ← get
  match s.pinnedPair? none none points with
  | some (p, q) => return some (← lineThrough p q)
  | none =>
    match s.linkedLine? points with
    | some l => return some (← l.mapM fun value => fresh value false)
    | none => return none

def fittedLine (s : Store α) (points : List (Point Variable)) : Line α :=
  (s.forcedLine? points).getD (leastSquares (points.map s.point))

end PlaneSketch.Store
