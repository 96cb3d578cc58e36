import PlaneSketch.Shape
import PlaneSketch.Store

/-! The kinds of relations and what a relation is built from. -/
namespace PlaneSketch

inductive RelationKind
  | midpoint
  | equalValues
  | colinearPoints
  | pointOnCircle
  | equalLength
  | tangentLine
  deriving DecidableEq, Repr

namespace RelationKind

def all : List RelationKind :=
  [.midpoint, .equalValues, .colinearPoints, .pointOnCircle, .equalLength, .tangentLine]

/-- The name shown to people. -/
def name : RelationKind → String
  | .midpoint => "midpoint"
  | .equalValues => "equal values"
  | .colinearPoints => "colinear points"
  | .pointOnCircle => "point on circle"
  | .equalLength => "equal length"
  | .tangentLine => "tangent line"

/-- The name in documents. -/
def tag : RelationKind → String
  | .midpoint => "midpoint"
  | .equalValues => "equal_values"
  | .colinearPoints => "colinear_points"
  | .pointOnCircle => "point_on_circle"
  | .equalLength => "equal_length"
  | .tangentLine => "tangent_line"

def ofTag? (tag : String) : Option RelationKind := all.find? fun kind => kind.tag == tag

end RelationKind

inductive Operand
  | figure (f : Figure Variable)
  /-- A variable by itself. -/
  | bare (v : Variable)
  deriving DecidableEq, Repr

inductive OperandSort
  | figure (kind : FigureKind)
  | bare
  deriving DecidableEq, Repr

def OperandSort.name : OperandSort → String
  | .figure kind => kind.name
  | .bare => "variable"

def Operand.sort : Operand → OperandSort
  | .figure f => .figure f.kind
  | .bare _ => .bare

end PlaneSketch
