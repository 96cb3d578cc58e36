import PlaneSketch.Relation

/-! Building relations from operands of unknown shape. Their number is judged before their shapes,
and the shapes in order. -/
namespace PlaneSketch

inductive OperandFault
  | count (expected found : Nat)
  | tooFew (least found : Nat)
  | sort (expected found : OperandSort)
  deriving DecidableEq, Repr

def OperandFault.message : OperandFault → String
  | .count expected found => s!"expected {expected} operands, found {found}"
  | .tooFew least found => s!"expected at least {least} operands, found {found}"
  | .sort expected found => "expected a " ++ expected.name ++ ", found " ++ found.name

namespace Operand

abbrev Sorted (β : Type) := Except OperandFault β

def point : Operand → Sorted (Point Variable)
  | .figure (.point p) => .ok p
  | other => .error (.sort (.figure .point) other.sort)

def line : Operand → Sorted (Line Variable)
  | .figure (.line l) => .ok l
  | other => .error (.sort (.figure .line) other.sort)

/-- An arc stands for its circle. -/
def circle : Operand → Sorted (Circle Variable)
  | .figure (.circle c) => .ok c
  | .figure (.arc a) => .ok a.circle
  | other => .error (.sort (.figure .circle) other.sort)

def bareVariable : Operand → Sorted Variable
  | .bare v => .ok v
  | other => .error (.sort .bare other.sort)

def two (operands : List Operand) : Sorted (Operand × Operand) :=
  match operands with
  | [first, second] => .ok (first, second)
  | _ => .error (.count 2 operands.length)

def atLeast (least : Nat) (operands : List Operand) : Sorted (List Operand) :=
  if operands.length < least then .error (.tooFew least operands.length) else .ok operands

end Operand

namespace Relation

def build (kind : RelationKind) (operands : List Operand) : Except OperandFault Relation :=
  match kind with
  | .midpoint => do
    let (first, second) ← Operand.two operands
    return .midpoint (← first.point) (← second.line)
  | .equalValues => do
    return .equalValues (← (← Operand.atLeast 2 operands).mapM Operand.bareVariable)
  | .colinearPoints => do
    return .colinearPoints (← (← Operand.atLeast 3 operands).mapM Operand.point)
  | .pointOnCircle => do
    let (first, second) ← Operand.two operands
    return .pointOnCircle (← first.point) (← second.circle)
  | .equalLength => do
    return .equalLength (← (← Operand.atLeast 2 operands).mapM Operand.line)
  | .tangentLine => do
    let (first, second) ← Operand.two operands
    return .tangentLine (← first.line) (← second.circle)

end Relation

end PlaneSketch
