import PlaneSketch.Document

/-! Saving a sketch. Cells are numbered in the order in which figures use them first; operands of
relations are looked up among the figures again. -/
namespace PlaneSketch.Sketch

open Related

variable {α ρ : Type}

/-- Whether `figure` is this very candidate, or the circle that the candidate is an arc of. -/
def standsFor (candidate figure : Figure Variable) : Bool :=
  candidate == figure ||
    match candidate, figure with
    | .arc a, .circle c => a.circle == c
    | _, _ => false

def partOf? (candidate figure : Figure Variable) : Option Nat :=
  candidate.parts.findIdx? fun p => .point p == figure

/-- A whole figure is preferred to a part of an earlier one. -/
def findFigure? (sketch : Sketch α ρ) (figure : Figure Variable) : Option FigureRef :=
  let whole := sketch.entities.find? fun e => standsFor e.figure figure
  let part := sketch.entities.findSome? fun e =>
    (partOf? e.figure figure).map fun part => ⟨e.id, some part⟩
  (whole.map fun e => ⟨e.id, none⟩).or part

def findVariable? (sketch : Sketch α ρ) (v : Variable) : Option VariableRef :=
  sketch.entities.findSome? fun e =>
    (e.figure.toList.findIdx? (· == v)).map fun index => ⟨e.id, index⟩

def recordOperand? (sketch : Sketch α ρ) : Operand → Option OperandRef
  | .figure f => (sketch.findFigure? f).map .figure
  | .bare v => (sketch.findVariable? v).map .bare

def recordRelation [Related ρ] (sketch : Sketch α ρ) (relation : ρ) :
    Except (SketchError α) RelationRecord :=
  match (operands relation).mapM sketch.recordOperand? with
  | some refs => .ok ⟨kind relation, refs⟩
  | none => .error (.detachedOperand (kind relation))

def usedCells (sketch : Sketch α ρ) (s : Store α) : List Nat :=
  ((sketch.entities.flatMap fun e => e.figure.toList).map s.cellOf).eraseDups

/-- The document of a sketch with its present values. It fails only if a relation refers to a
figure that is not in the sketch. -/
def save [Scalar α] [Related ρ] (sketch : Sketch α ρ) (s : Store α) :
    Except (SketchError α) (Document α) := do
  let used := sketch.usedCells s
  let relations ← sketch.relations.mapM sketch.recordRelation
  return {
    cells := used.map fun cell => s.cells.getD cell ⟨0, false⟩
    figures := sketch.entities.map fun e => ⟨e.id, e.figure.map fun v => used.idxOf (s.cellOf v)⟩
    relations
    config := sketch.config }

end PlaneSketch.Sketch
