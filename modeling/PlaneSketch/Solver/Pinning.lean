import PlaneSketch.Solver.Relax

/-! What a program may do while variables are pinned: write values, solve, and pin more variables. Guards
are dropped in the reverse of the order in which they were made. -/
namespace PlaneSketch

inductive PinAct (α ρ : Type)
  | assign (v : Variable) (value : α)
  | shift (v : Variable) (delta : α)
  /-- One pass of a solve. -/
  | pass (factor : α) (relations : List ρ)
  | solve (config : Config α) (relations : List ρ) (pinned : List Variable) (damped : Bool)
  | pin (vs : List Variable)
  /-- Drop the guard that was made last. -/
  | drop

namespace PinAct

variable {α ρ : Type}

/-- How many of its own guards a program has left after an act. It may drop no others. -/
def depth : Nat → PinAct α ρ → Option Nat
  | own, .pin _ => some (own + 1)
  | 0, .drop => none
  | own + 1, .drop => some own
  | own, _ => some own

/-- Every guard that the acts make they drop, and no other one. -/
def Nested (acts : List (PinAct α ρ)) : Prop := acts.foldlM depth 0 = some 0

instance (acts : List (PinAct α ρ)) : Decidable (Nested acts) := inferInstanceAs (Decidable (_ = _))

/-- The acts of a solve that makes so many passes. -/
def ofSolve (factor : α) (relations : List ρ) (pinned : List Variable) (passes : Nat) : List (PinAct α ρ) :=
  .pin pinned :: (List.replicate passes (.pass factor relations) ++ [.drop])

end PinAct

structure Pinning (α : Type) where
  store : Store α
  /-- The guards that have not been dropped, the latest first. -/
  guards : List Guard

namespace Pinning

variable {α ρ : Type} [Scalar α] [Constraint α ρ]

/-- A pass that a relation ends changes nothing. -/
def step (p : Pinning α) : PinAct α ρ → Pinning α
  | .assign v value => { p with store := p.store.setValue v value }
  | .shift v delta => { p with store := p.store.shift v delta }
  | .pass factor relations =>
    match relax factor relations p.store with
    | .ok store => { p with store }
    | .error _ => p
  | .solve config relations pinned damped =>
    { p with store := (relaxHolding config relations pinned damped p.store).store }
  | .pin vs =>
    let (guard, store) := p.store.pin vs
    ⟨store, guard :: p.guards⟩
  | .drop =>
    match p.guards with
    | [] => p
    | guard :: guards => ⟨p.store.release guard, guards⟩

def run (p : Pinning α) (acts : List (PinAct α ρ)) : Pinning α := acts.foldl step p

end Pinning

end PlaneSketch
