import PlaneSketch.Store

/-! Pinning variables for a while. A guard remembers, once per cell, whether it was constant. -/
namespace PlaneSketch

structure Guard where
  saved : List (Variable × Bool)
  deriving Repr

namespace Store

variable {α : Type} [Scalar α]

def guardFor (s : Store α) (vs : List Variable) : Guard :=
  ⟨(s.distinct vs).map fun v => (v, s.isConstant v)⟩

def hold (s : Store α) (guard : Guard) : Store α :=
  guard.saved.foldl (fun s entry => s.setConstant entry.1 true) s

/-- Put back what the guard remembers, the latest first. -/
def release (s : Store α) (guard : Guard) : Store α :=
  guard.saved.reverse.foldl (fun s entry => s.setConstant entry.1 entry.2) s

/-- Pin one more variable, unless the guard remembers its cell already. -/
def pinNext (opened : Guard × Store α) (v : Variable) : Guard × Store α :=
  if opened.1.saved.any fun entry => opened.2.isLinked entry.1 v then opened
  else (⟨opened.1.saved ++ [(v, opened.2.isConstant v)]⟩, opened.2.setConstant v true)

/-- Pin the variables in turn. When a variable is reached, those before it are pinned. -/
def pin (s : Store α) (vs : List Variable) : Guard × Store α := vs.foldl pinNext (⟨[]⟩, s)

end Store

end PlaneSketch
