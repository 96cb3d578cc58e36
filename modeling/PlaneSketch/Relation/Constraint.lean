import PlaneSketch.Relation.Kind

/-! What the solver needs to know of a relation. A relation proposes, for each of its variables, the
change that would satisfy it if all other variables stayed; the solver reconciles the proposals. -/
namespace PlaneSketch

structure Delta (α : Type) where
  target : Variable
  amount : α
  deriving Repr

class Related (ρ : Type) where
  kind : ρ → RelationKind
  /-- The variables that a proposal may name. -/
  owned : ρ → List Variable
  /-- What the relation was built from, in order. -/
  operands : ρ → List Operand

class Constraint (α ρ : Type) extends Related ρ where
  deltas : Store α → ρ → List (Delta α)
  /-- How far the relation is from being satisfied. -/
  error : Store α → ρ → α

open Related Constraint

instance {ρ σ : Type} [Related ρ] [Related σ] : Related (ρ ⊕ σ) where
  kind := Sum.elim kind kind
  owned := Sum.elim owned owned
  operands := Sum.elim operands operands

instance {α ρ σ : Type} [Constraint α ρ] [Constraint α σ] : Constraint α (ρ ⊕ σ) where
  deltas s := Sum.elim (deltas s) (deltas s)
  error s := Sum.elim (error s) (error s)

/-- A constraint that always proposes the same change. It may name a variable it does not own. -/
structure Proposal (α : Type) where
  kind : RelationKind
  owned : List Variable
  delta : Delta α
  error : α

instance {α : Type} : Constraint α (Proposal α) where
  kind := Proposal.kind
  owned := Proposal.owned
  operands _ := []
  deltas _ p := [p.delta]
  error _ p := p.error

variable {α : Type} [Scalar α]

namespace Delta

def toward (s : Store α) (v : Variable) (goal : α) : Delta α := ⟨v, goal - s.value v⟩

def towardPoint (s : Store α) (p : Point Variable) (goal : Point α) : List (Delta α) :=
  [toward s p.x goal.x, toward s p.y goal.y]

end Delta

end PlaneSketch
