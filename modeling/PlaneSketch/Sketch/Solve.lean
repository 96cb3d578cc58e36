import PlaneSketch.Sketch

/-! Solving a sketch while figures are held in place, and the edits that end in a solve. -/
namespace PlaneSketch

structure Solve (α : Type) where
  before : List (Event α)
  figureCount : Nat
  relationCount : Nat
  pinnedCells : Nat
  damped : Bool
  run : Run α
  result : SolveResult α

namespace Solve

variable {α : Type}

def store (solve : Solve α) : Store α := solve.run.store

def fault (solve : Solve α) : Option RelationKind := solve.run.fault

def passEvents (run : Run α) : List (Event α) :=
  run.passErrors.reverse.zipIdx.map fun (error, i) => .pass (i + 1) error

/-- A run that ends in a fault never reports that it finished. -/
def events (solve : Solve α) : List (Event α) :=
  solve.before ++
    .solving solve.relationCount solve.figureCount solve.pinnedCells solve.damped
      solve.run.initialError :: passEvents solve.run ++
    if solve.fault.isSome then []
    else [.solved solve.result.status solve.result.iterations solve.result.error]

end Solve

variable {α ρ : Type} [Scalar α] [Constraint α ρ]

def solveHolding (config : Config α) (relations : List ρ) (figureCount : Nat)
    (held : List (Figure Variable)) (damped : Bool) (s : Store α) : Solve α :=
  let pinned := held.flatMap Figure.toList
  let run := relaxHolding config relations pinned damped s
  { before := []
    figureCount
    relationCount := relations.length
    pinnedCells := (s.distinct pinned).length
    damped
    run
    result := run.result config relations figureCount }

namespace Sketch

/-- Solve with the figures of the given ids held. Ids without a figure are logged and ignored. -/
def solve (sketch : Sketch α ρ) (held : List EntityId) (damped : Bool) (s : Store α) : Solve α :=
  let solve := solveHolding sketch.config sketch.relations sketch.entities.length
    (held.filterMap sketch.figure?) damped s
  let unknown := held.filter fun id => (sketch.figure? id).isNone
  { solve with before := unknown.map .unknownFigure }

/-- Assign a value to a variable and solve around it, damped. The variable stays pinned afterwards
only with `hold`. -/
def pinAndSolve (sketch : Sketch α ρ) (v : Variable) (value : α) (hold : Bool) (s : Store α) :
    Solve α :=
  let assigned := s.setValue v value
  let pinning : List (Event α) := [.pinning value hold]
  if hold then { sketch.solve [] true (assigned.setConstant v true) with before := pinning }
  else
    let guard := assigned.guardFor [v]
    let solve := sketch.solve [] true (assigned.hold guard)
    { solve with
      before := pinning
      run := { solve.run with store := solve.run.store.release guard } }

/-- Move a figure by the step from `start` to `goal` and solve with it held. -/
def drag (sketch : Sketch α ρ) (id : EntityId) (start goal : Point α) (damped : Bool)
    (s : Store α) : Except (SketchError α) (Solve α) :=
  match sketch.figure? id with
  | none => .error (.unknownFigure id)
  | some figure =>
    let solve := sketch.solve [id] damped (s.translate figure start goal)
    .ok { solve with before := .dragged id start goal :: solve.before }

end Sketch

end PlaneSketch
