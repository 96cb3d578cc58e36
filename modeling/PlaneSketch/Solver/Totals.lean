import PlaneSketch.Solver.Relax

/-! Passes by running totals. The proposals are gone through once, which leaves a total for each cell
that is to change; then the totals are applied one by one, in whatever order they come. -/
namespace PlaneSketch

variable {α ρ : Type}

structure Total (α : Type) where
  cell : Nat
  /-- The variable by which the cell was named first. -/
  handle : Variable
  sum : α
  count : Nat

namespace Total

variable [Scalar α]

def add (total : Total α) (amount : α) : Total α :=
  { total with sum := total.sum + amount, count := total.count + 1 }

/-- The mean of what has been proposed, scaled. -/
def step (factor : α) (total : Total α) : α := factor * total.sum / Scalar.ofNat total.count

/-- Add an amount to the total of a cell; the total of a cell that has none yet comes last. -/
def record (cell : Nat) (handle : Variable) (amount : α) : List (Total α) → List (Total α)
  | [] => [add ⟨cell, handle, 0, 0⟩ amount]
  | total :: rest =>
    if total.cell = cell then total.add amount :: rest else total :: record cell handle amount rest

end Total

namespace Store

variable [Scalar α]

/-- The totals of the proposals that count, in the order in which cells were named first. -/
def totals (s : Store α) (deltas : List (Delta α)) : List (Total α) :=
  deltas.foldl (fun totals delta =>
    if Scalar.isFinite delta.amount && !s.isConstant delta.target then
      Total.record (s.cellOf delta.target) delta.target delta.amount totals
    else totals) []

def settle (s : Store α) (factor : α) (totals : List (Total α)) : Store α :=
  totals.foldl (fun s total => s.shift total.handle (total.step factor)) s

end Store

/-- One pass, with its totals applied in the order that `arrange` brings them into. -/
def relaxByTotals [Scalar α] [Constraint α ρ] (arrange : List (Total α) → List (Total α)) (factor : α)
    (relations : List ρ) (s : Store α) : Except RelationKind (Store α) := do
  let deltas ← relations.mapM (ownDeltas s)
  return s.settle factor (arrange (s.totals deltas.flatten))

end PlaneSketch
