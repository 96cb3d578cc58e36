import PlaneSketch.Store
import PlaneSketch.Shape

/-! Copies of variables. Variables copied together share a new cell exactly if their originals
shared one; nothing else is linked to a copy. -/
namespace PlaneSketch

/-- For each cell that has been copied, the variable that holds its copy. -/
abbrev Copies := List (Nat × Variable)

namespace Store

variable {α : Type} [Scalar α]

def copy (v : Variable) : StateM (Store α) Variable := fun s =>
  fresh (s.value v) (s.isConstant v) s

def copyAmong (v : Variable) : StateT Copies (StateM (Store α)) Variable := fun copies => do
  let s ← get
  match copies.find? fun entry => entry.1 == s.cellOf v with
  | some (_, held) => return (← share held, copies)
  | none =>
    let copied ← copy v
    return (copied, copies ++ [(s.cellOf v, copied)])

def copying {β : Type} (action : StateT Copies (StateM (Store α)) β) : StateM (Store α) β :=
  return (← action.run []).1

def copyVariables (vs : List Variable) : StateM (Store α) (List Variable) :=
  copying (vs.mapM copyAmong)

def copyFigures (figures : List (Figure Variable)) : StateM (Store α) (List (Figure Variable)) :=
  copying (figures.mapM (Figure.mapM copyAmong))

def copyFigure (figure : Figure Variable) : StateM (Store α) (Figure Variable) :=
  copying (figure.mapM copyAmong)

end Store

end PlaneSketch
