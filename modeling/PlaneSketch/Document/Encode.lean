import PlaneSketch.Document
import PlaneSketch.Json

/-! The JSON form of documents and results that is written. -/
namespace PlaneSketch

open Json

def EntityId.toJson (id : EntityId) : Json := .str id.text

def Cell.toJson (cell : Cell Float) : Json :=
  .obj [("value", float cell.value), ("constant", .bool cell.constant)]

namespace Figure

def pointToJson (p : Point Nat) : Json := .obj [("x", nat p.x), ("y", nat p.y)]

def toJson (shape : Figure Nat) : Json :=
  let fields := match shape with
    | .point p => [("x", nat p.x), ("y", nat p.y)]
    | .line l => [("p0", pointToJson l.p0), ("p1", pointToJson l.p1)]
    | .circle c => [("c", pointToJson c.c), ("r", nat c.r)]
    | .arc a =>
      [("c", pointToJson a.c), ("r", nat a.r), ("p0", pointToJson a.p0), ("p1", pointToJson a.p1)]
  .obj (("type", .str shape.kind.name) :: fields)

end Figure

def FigureRecord.toJson (record : FigureRecord) : Json :=
  .obj [("id", record.id.toJson), ("shape", record.shape.toJson)]

def FigureRef.toJson (ref : FigureRef) : Json :=
  .obj (("id", ref.id.toJson) :: ref.part.elim [] fun part => [("part", nat part)])

def VariableRef.toJson (ref : VariableRef) : Json :=
  .obj [("figure", ref.figure.toJson), ("index", nat ref.index)]

def OperandRef.toJson : OperandRef → Json
  | .figure ref => .obj [("figure", ref.toJson)]
  | .bare ref => .obj [("variable", ref.toJson)]

def RelationRecord.toJson (record : RelationRecord) : Json :=
  .obj [("kind", .str record.kind.tag), ("operands", .arr (record.operands.map OperandRef.toJson))]

def Config.toJson (config : Config Float) : Json :=
  .obj [("max_iterations", nat config.maxIterations), ("tolerance", float config.tolerance),
    ("relaxation", float config.relaxation), ("damped_relaxation", float config.dampedRelaxation)]

def Document.toJson (d : Document Float) : Json :=
  .obj [("cells", .arr (d.cells.map Cell.toJson)),
    ("figures", .arr (d.figures.map FigureRecord.toJson)),
    ("relations", .arr (d.relations.map RelationRecord.toJson)), ("config", d.config.toJson)]

def RelationStatus.toJson (status : RelationStatus Float) : Json :=
  .obj [("index", nat status.index), ("kind", .str status.kind.tag), ("error", float status.error),
    ("satisfied", .bool status.satisfied)]

def SolveResult.toJson (result : SolveResult Float) : Json :=
  .obj [("status", .str result.status.tag), ("converged", .bool result.converged),
    ("iterations", nat result.iterations), ("initial_error", float result.initialError),
    ("error", float result.error), ("relation_count", nat result.relationCount),
    ("figure_count", nat result.figureCount),
    ("relation_errors", .arr (result.relationErrors.map RelationStatus.toJson))]

end PlaneSketch
