import PlaneSketch.Session.Execute

/-! Single solve requests, which need no session. -/
namespace PlaneSketch

structure SolveRequest where
  document : Document Float
  held : List EntityId
  damped : Bool
  /-- Overrides the settings of the document. -/
  config : Option (Config Float)

structure SolveResponse where
  document : Document Float
  result : SolveResult Float

namespace SolveRequest

open Json Json.Decoder

structure Fields where
  document : Option (Document Float)
  held : List EntityId
  damped : Bool
  config : Option (Config Float)

def decode : Decoder SolveRequest :=
  record ["document", "constant_figures", "damped", "config"]
    (fun key t (fields : Fields) => match key with
      | "document" => do return { fields with document := some (← Document.decode 1 t) }
      | "constant_figures" => do return { fields with held := ← list EntityId.decode t }
      | "damped" => do return { fields with damped := ← bool t }
      | _ => do return { fields with config := ← optional Config.decode t })
    ⟨none, [], false, none⟩
    fun fields => do
      return ⟨← required fields.document, fields.held, fields.damped, fields.config⟩

/-- Solve the document of a request. Its own settings are judged before those that override
them. -/
def solve (request : SolveRequest) : Except (SketchError Float) SolveResponse := do
  let (loaded, s) ← request.document.load Store.empty
  let config := request.config.getD loaded.config
  (config.validate).mapError .invalidConfig
  let sketch := { loaded with config }
  let solve := sketch.solve request.held request.damped s
  return ⟨← sketch.save solve.store, solve.result⟩

inductive Answer
  | solved (response : SolveResponse)
  | failed (error : SketchError Float)
  /-- The body is no request. -/
  | refused (refusal : Refusal)

def answerTo : Except Refusal SolveRequest → Answer
  | .error refusal => .refused refusal
  | .ok request =>
    match request.solve with
    | .ok response => .solved response
    | .error e => .failed e

def ofText (text : String) : Except Refusal SolveRequest := Json.decode decode text

/-- Answer a posted body. It is read up to the end of its value; what follows is not looked at. -/
def answer (body : String) : Answer := answerTo (Json.decodeFirst decode body)

/-- The status code of an answer: text that is no JSON is a bad request, and everything else that
fails cannot be processed. -/
def Answer.status : Answer → Nat
  | .solved _ => 200
  | .refused .malformed => 400
  | .failed _ | .refused .mismatched => 422

def Answer.body? : Answer → Option Json
  | .solved response =>
    some (.obj [("document", response.document.toJson), ("result", response.result.toJson)])
  | .failed e =>
    some (.obj [("code", .str (SessionError.sketch e).code), ("message", .str e.message)])
  | .refused _ => none

end SolveRequest

end PlaneSketch
