import PlaneSketch.Session.Command
import PlaneSketch.Document.Encode
import PlaneSketch.Document.Load
import PlaneSketch.Document.Save
import PlaneSketch.Sketch.Solve

/-! Carrying out commands on the document of a session. The document becomes a sketch, is edited and
is saved again; a command that fails leaves it as it was. The six relations never propose a change
of a variable that is not theirs, so a solve of a session has no fault. -/
namespace PlaneSketch

/-- What a successful command answers with. -/
structure Update where
  document : Document Float
  result : Option (SolveResult Float)

structure Execution where
  outcome : Except SessionError Update
  events : List (Event Float)

namespace Execution

def saving (sketch : Sketch Float Relation) (s : Store Float) (result : Option (SolveResult Float))
    (events : List (Event Float)) : Execution :=
  ⟨((sketch.save s).mapError .sketch).map fun document => ⟨document, result⟩, events⟩

def savingSolve (sketch : Sketch Float Relation) (solve : Solve Float) : Execution :=
  saving sketch solve.store (some solve.result) solve.events

def opening (d : Document Float) (next : Sketch Float Relation → Store Float → Execution) :
    Execution :=
  match d.load Store.empty with
  | .error e => ⟨.error (.sketch e), []⟩
  | .ok (sketch, s) => { next sketch s with events := d.loadedEvent :: (next sketch s).events }

end Execution

open Execution in
def Document.execute (d : Document Float) : Command → Execution
  | .load incoming =>
    opening incoming fun sketch s =>
      saving sketch s none [.sessionLoaded sketch.entities.length sketch.relations.length]
  | .solve damped =>
    opening d fun sketch s =>
      let solve := sketch.solve [] damped s
      saving sketch solve.store (some solve.result)
        (solve.events ++ [.statusReported solve.result.statusMessage])
  | .pin request =>
    opening d fun sketch s =>
      match sketch.resolveVariable request.target with
      | .error e => ⟨.error (.sketch e), []⟩
      | .ok v => savingSolve sketch (sketch.pinAndSolve v request.value request.hold s)
  | .drag request =>
    opening d fun sketch s =>
      match sketch.drag request.figure request.start request.goal request.damped s with
      | .error e => ⟨.error (.sketch e), []⟩
      | .ok solve => savingSolve sketch solve
  | .get => ⟨.ok ⟨d, none⟩, []⟩

namespace Execution

def documentAfter (d : Document Float) (execution : Execution) : Document Float :=
  match execution.outcome with
  | .ok update => update.document
  | .error _ => d

end Execution

def Update.toJson (update : Update) : Json :=
  .obj (("document", update.document.toJson) ::
    update.result.elim [] fun result => [("result", result.toJson)])

def SessionError.toJson (error : SessionError) : Json :=
  .obj [("code", .str error.code), ("message", .str error.message), ("severity", .str "error")]

end PlaneSketch
