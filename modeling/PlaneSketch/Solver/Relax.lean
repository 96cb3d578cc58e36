import PlaneSketch.Relation.Constraint
import PlaneSketch.Store.Guard
import PlaneSketch.Solver.Config

/-! Relaxation. A pass collects what all relations propose on the state before it, takes the mean
per cell, scales it and applies it. Passes are repeated until the total error is within tolerance or
the limit is reached. -/
namespace PlaneSketch

open Related Constraint

variable {α ρ : Type} [Scalar α] [Constraint α ρ]

def totalError (s : Store α) (relations : List ρ) : α := Scalar.sum (relations.map (error s))

/-- What a relation proposes, unless it names a variable that is not its own; then its kind. -/
def ownDeltas (s : Store α) (relation : ρ) : Except RelationKind (List (Delta α)) :=
  if (deltas s relation).all fun delta => decide (delta.target ∈ owned relation) then
    .ok (deltas s relation)
  else .error (kind relation)

namespace Store

/-- The corrections of cells that count: finite ones of cells that are not constant. -/
def corrections (s : Store α) (deltas : List (Delta α)) : List (Nat × α) :=
  (deltas.filter fun delta => Scalar.isFinite delta.amount && !s.isConstant delta.target).map
    fun delta => (s.cellOf delta.target, delta.amount)

def amountsFor (cell : Nat) (corrections : List (Nat × α)) : List α :=
  (corrections.filter fun entry => entry.1 == cell).map Prod.snd

/-- The step of a cell: its mean correction, scaled. -/
def stepOf (factor : α) (amounts : List α) : α :=
  factor * amounts.foldl (· + ·) 0 / Scalar.ofNat amounts.length

def correct (s : Store α) (factor : α) (corrections : List (Nat × α)) : Store α :=
  { s with cells := s.cells.mapIdx fun i cell =>
      let amounts := amountsFor i corrections
      if amounts.isEmpty then cell else { cell with value := cell.value + stepOf factor amounts } }

end Store

/-- One pass. -/
def relax (factor : α) (relations : List ρ) (s : Store α) : Except RelationKind (Store α) := do
  let deltas ← relations.mapM (ownDeltas s)
  return s.correct factor (s.corrections deltas.flatten)

structure Run (α : Type) where
  store : Store α
  initialError : α
  /-- The total error after each pass, the latest first. -/
  passErrors : List α
  /-- The kind of the relation that proposed to change a variable of others, which ends the run. -/
  fault : Option RelationKind

namespace Run

def iterations (run : Run α) : Nat := run.passErrors.length

def error (run : Run α) : α := run.passErrors.headD run.initialError

end Run

def relaxAtMost (relations : List ρ) (tolerance factor : α) : Nat → Run α → Run α
  | 0, run => run
  | n + 1, run =>
    if tolerance < run.error then
      match relax factor relations run.store with
      | .error kind => { run with fault := some kind }
      | .ok store => relaxAtMost relations tolerance factor n
          { run with store, passErrors := totalError store relations :: run.passErrors }
    else run

/-- Relax with the given variables pinned for this run only. -/
def relaxHolding (config : Config α) (relations : List ρ) (pinned : List Variable) (damped : Bool)
    (s : Store α) : Run α :=
  let guard := s.guardFor pinned
  let start := s.hold guard
  let run := relaxAtMost relations config.tolerance (config.stepFactor damped) config.maxIterations
    ⟨start, totalError start relations, [], none⟩
  { run with store := run.store.release guard }

end PlaneSketch
