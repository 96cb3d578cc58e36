import PlaneSketch.Document

/-! Loading a document. Its settings are judged first, then the figures in order, each cell before
its id, then the relations in order, each operand before their number and shapes. -/
namespace PlaneSketch

variable {α ρ : Type}

abbrev Loading (α : Type) := StateT (Store α) (Except (SketchError α))

def Sketch.resolveOperand (sketch : Sketch α ρ) : OperandRef → Except (SketchError α) Operand
  | .figure ref => (sketch.resolveFigure ref).map .figure
  | .bare ref => (sketch.resolveVariable ref).map .bare

def Loading.variableAt (cells : List Variable) (index : Nat) : Loading α Variable :=
  match cells[index]? with
  | some v => Store.share v
  | none => throw (.unknownCell index)

def Loading.addFigure (cells : List Variable) (sketch : Sketch α ρ) (record : FigureRecord) :
    Loading α (Sketch α ρ) := do
  let figure ← record.shape.mapM (variableAt cells)
  sketch.insert record.id figure

def Sketch.buildRelation (sketch : Sketch α ρ) (record : RelationRecord) :
    Except (SketchError α) Relation := do
  let operands ← record.operands.mapM sketch.resolveOperand
  (Relation.build record.kind operands).mapError (.invalidOperands record.kind)

def Sketch.buildRelations (sketch : Sketch α ρ) (records : List RelationRecord) :
    Except (SketchError α) (List Relation) :=
  records.mapM sketch.buildRelation

variable [Scalar α]

def Document.checkConfig (d : Document α) : Except (SketchError α) Unit :=
  d.config.validate.mapError .invalidConfig

/-- Load a document beside what the store already holds. -/
def Document.load (d : Document α) : Loading α (Sketch α Relation) := do
  d.checkConfig
  let cells ← d.cells.mapM fun cell => Store.fresh cell.value cell.constant
  let start : Sketch α Relation := ⟨[], [], d.config⟩
  let sketch ← d.figures.foldlM (Loading.addFigure cells) start
  let relations ← sketch.buildRelations d.relations
  return { sketch with relations }

def Document.loadedEvent (d : Document α) : Event α :=
  .documentLoaded d.cells.length d.figures.length d.relations.length

end PlaneSketch
