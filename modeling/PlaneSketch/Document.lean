import PlaneSketch.Sketch

/-! Documents: sketches as plain data. Figures refer to cells by index, so two positions with one
index are linked; relations refer to figures by id. -/
namespace PlaneSketch

structure FigureRecord where
  id : EntityId
  shape : Figure Nat
  deriving DecidableEq, Repr

inductive OperandRef
  | figure (ref : FigureRef)
  | bare (ref : VariableRef)
  deriving DecidableEq, Repr

structure RelationRecord where
  kind : RelationKind
  operands : List OperandRef
  deriving DecidableEq, Repr

structure Document (α : Type) where
  cells : List (Cell α)
  figures : List FigureRecord
  relations : List RelationRecord
  config : Config α

def Document.empty {α : Type} [Scalar α] : Document α := ⟨[], [], [], Config.standard⟩

end PlaneSketch
