import PlaneSketch.Solver.Relax

/-! What a solve reports. -/
namespace PlaneSketch

open Related Constraint

inductive SolveStatus
  | converged
  | iterationLimitReached
  deriving DecidableEq, Repr

def SolveStatus.tag : SolveStatus → String
  | .converged => "converged"
  | .iterationLimitReached => "iteration_limit_reached"

def SolveStatus.name : SolveStatus → String
  | .converged => "Converged"
  | .iterationLimitReached => "IterationLimitReached"

structure RelationStatus (α : Type) where
  index : Nat
  kind : RelationKind
  error : α
  satisfied : Bool
  deriving Repr

structure SolveResult (α : Type) where
  status : SolveStatus
  converged : Bool
  iterations : Nat
  initialError : α
  error : α
  relationCount : Nat
  figureCount : Nat
  relationErrors : List (RelationStatus α)
  deriving Repr

def SolveResult.statusMessage (r : SolveResult Float) : String :=
  let iterations := toString r.iterations
  let relations := toString r.relationCount
  match r.status with
  | .converged =>
    "Converged after " ++ iterations ++ " iterations (" ++ relations ++ " relations, error " ++
      statusText r.error ++ ")"
  | .iterationLimitReached =>
    let unsatisfied := toString (r.relationErrors.filter fun status => !status.satisfied).length
    "Stopped after " ++ iterations ++ " iterations with error " ++ statusText r.error ++ "; " ++
      unsatisfied ++ " of " ++ relations ++ " relations unsatisfied"

variable {α ρ : Type} [Scalar α] [Constraint α ρ]

def relationStatuses (config : Config α) (relations : List ρ) (s : Store α) :
    List (RelationStatus α) :=
  relations.zipIdx.map fun (relation, index) =>
    let error := error s relation
    ⟨index, kind relation, error, decide (error ≤ config.tolerance)⟩

def Run.result (run : Run α) (config : Config α) (relations : List ρ) (figureCount : Nat) :
    SolveResult α :=
  let converged := decide (run.error ≤ config.tolerance)
  { status := if converged then .converged else .iterationLimitReached
    converged
    iterations := run.iterations
    initialError := run.initialError
    error := run.error
    relationCount := relations.length
    figureCount
    relationErrors := relationStatuses config relations run.store }

end PlaneSketch
