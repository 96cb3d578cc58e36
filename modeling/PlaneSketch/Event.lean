import PlaneSketch.EntityId
import PlaneSketch.Solver.Result

/-! Events that are logged, as data. -/
namespace PlaneSketch

inductive Level
  | trace
  | debug
  | info
  | warn
  deriving DecidableEq, Repr

def Level.name : Level → String
  | .trace => "TRACE"
  | .debug => "DEBUG"
  | .info => "INFO"
  | .warn => "WARN"

inductive FieldValue (α : Type)
  | scalar (value : α)
  | nat (value : Nat)
  | bool (value : Bool)
  | text (value : String)
  | id (value : EntityId)
  deriving Repr

inductive Event (α : Type)
  /-- Two constant cells with different values were linked. -/
  | pinConflict (kept dropped : α)
  | unknownFigure (id : EntityId)
  | solving (relations figures pinnedCells : Nat) (damped : Bool) (initialError : α)
  | pass (iteration : Nat) (error : α)
  | solved (status : SolveStatus) (iterations : Nat) (error : α)
  | pinning (value : α) (hold : Bool)
  | dragged (figure : EntityId) (start goal : Point α)
  | documentLoaded (cells figures relations : Nat)
  | sessionLoaded (figures relations : Nat)
  | statusReported (message : String)
  | rejected (reason : String)
  | failed (reason : String)
  deriving Repr

namespace Event

variable {α : Type}

def level : Event α → Level
  | .pass .. => .trace
  | .solving .. | .solved .. | .pinning .. | .dragged .. | .documentLoaded .. => .debug
  | .sessionLoaded .. | .statusReported .. => .info
  | .pinConflict .. | .unknownFigure .. | .rejected .. | .failed .. => .warn

def message : Event α → String
  | .pinConflict .. => "Linked two pinned cells with different values"
  | .unknownFigure .. => "Ignoring unknown constant figure"
  | .solving .. => "Solving sketch"
  | .pass .. => "Relaxation pass"
  | .solved .. => "Solve finished"
  | .pinning .. => "Pin and solve"
  | .dragged .. => "Dragged figure"
  | .documentLoaded .. => "Loaded sketch document"
  | .sessionLoaded .. => "Loaded sketch"
  | .statusReported message => message
  | .rejected reason => "Rejected message: " ++ reason
  | .failed reason => "Command failed: " ++ reason

def coordinates (p : Point Float) : String := "[" ++ eventText p.x ++ ", " ++ eventText p.y ++ "]"

def fields : Event Float → List (String × FieldValue Float)
  | .pinConflict kept dropped => [("kept", .scalar kept), ("dropped", .scalar dropped)]
  | .unknownFigure id => [("id", .id id)]
  | .solving relations figures pinnedCells damped initialError =>
    [("relations", .nat relations), ("figures", .nat figures), ("pinned_cells", .nat pinnedCells),
      ("damped", .bool damped), ("initial_error", .scalar initialError)]
  | .pass iteration error => [("iteration", .nat iteration), ("error", .scalar error)]
  | .solved status iterations error =>
    [("status", .text status.name), ("iterations", .nat iterations), ("error", .scalar error)]
  | .pinning value hold => [("value", .scalar value), ("hold", .bool hold)]
  | .dragged figure start goal =>
    [("figure", .id figure), ("from", .text (coordinates start)),
      ("to", .text (coordinates goal))]
  | .documentLoaded cells figures relations =>
    [("cells", .nat cells), ("figures", .nat figures), ("relations", .nat relations)]
  | .sessionLoaded figures relations => [("figures", .nat figures), ("relations", .nat relations)]
  | .statusReported _ | .rejected _ | .failed _ => []

end Event

end PlaneSketch
