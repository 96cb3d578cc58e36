import PlaneSketch.Scalar

/-! Variables and the value cells behind them. Every variable names one cell; linking two variables
makes all variables of the first cell name the second one, so links are an equivalence and are never
undone. A cell that is constant is left alone by the solver, whatever variable reaches it. -/
namespace PlaneSketch

structure Variable where
  index : Nat
  deriving DecidableEq, Repr

def Variable.label (v : Variable) : String := "v" ++ toString v.index

def cellLabel (cell : Nat) : String := "c" ++ toString cell

structure Cell (α : Type) where
  value : α
  constant : Bool
  deriving Repr

structure Store (α : Type) where
  cells : Array (Cell α)
  /-- The cell that each variable names. -/
  named : Array Nat

namespace Store

variable {α : Type}

def empty : Store α := ⟨#[], #[]⟩

def cellOf (s : Store α) (v : Variable) : Nat := s.named.getD v.index 0

def isLinked (s : Store α) (v w : Variable) : Bool := s.cellOf v == s.cellOf w

/-- The first of the variables that name each cell. -/
def distinct (s : Store α) (vs : List Variable) : List Variable := vs.eraseDupsBy s.isLinked

section Creation

variable {m : Type → Type} [Monad m]

def fresh (value : α) (constant : Bool) : StateT (Store α) m Variable := fun s =>
  return (⟨s.named.size⟩, ⟨s.cells.push ⟨value, constant⟩, s.named.push s.cells.size⟩)

def share (v : Variable) : StateT (Store α) m Variable := fun s =>
  return (⟨s.named.size⟩, { s with named := s.named.push (s.cellOf v) })

end Creation

def updateCell (s : Store α) (cell : Nat) (f : Cell α → Cell α) : Store α :=
  { s with cells := s.cells.modify cell f }

def setConstant (s : Store α) (v : Variable) (constant : Bool) : Store α :=
  s.updateCell (s.cellOf v) fun cell => { cell with constant }

/-- Writing ignores constancy; the solver respects it itself. -/
def setValue (s : Store α) (v : Variable) (value : α) : Store α :=
  s.updateCell (s.cellOf v) fun cell => { cell with value }

/-- Let every variable of the cell `source` name the cell `target`. -/
def rename (s : Store α) (source target : Nat) : Store α :=
  { s with named := s.named.map fun cell => if cell = source then target else cell }

variable [Scalar α]

def cell (s : Store α) (v : Variable) : Cell α := s.cells.getD (s.cellOf v) ⟨0, false⟩

def value (s : Store α) (v : Variable) : α := (s.cell v).value

def isConstant (s : Store α) (v : Variable) : Bool := (s.cell v).constant

def shift (s : Store α) (v : Variable) (delta : α) : Store α :=
  s.updateCell (s.cellOf v) fun cell => { cell with value := cell.value + delta }

/-- Shift each cell among the variables once. -/
def shiftCells (s : Store α) (vs : List Variable) (delta : α) : Store α :=
  (s.distinct vs).foldl (fun s v => s.shift v delta) s

/-- Merge the cell of `v` into that of `w`. A value that only `v` holds constant is kept and stays
constant; otherwise the cell of `w` is left as it is. -/
def link (s : Store α) (v w : Variable) : Store α :=
  if s.isLinked v w then s
  else
    let kept := if s.isConstant v && !s.isConstant w then
      (s.setValue w (s.value v)).setConstant w true else s
    kept.rename (s.cellOf v) (s.cellOf w)

/-- The values of `w` and `v`, if linking them drops a constant value that differs. -/
def conflict? (s : Store α) (v w : Variable) : Option (α × α) :=
  if !s.isLinked v w && s.isConstant v && s.isConstant w && s.value v != s.value w then
    some (s.value w, s.value v)
  else none

def linkAll (s : Store α) (pairs : List (Variable × Variable)) : Store α :=
  pairs.foldl (fun s pair => s.link pair.1 pair.2) s

/-- The conflicts met while linking the pairs in turn. -/
def conflicts (s : Store α) : List (Variable × Variable) → List (α × α)
  | [] => []
  | (v, w) :: rest => (s.conflict? v w).toList ++ (s.link v w).conflicts rest

end Store

end PlaneSketch
