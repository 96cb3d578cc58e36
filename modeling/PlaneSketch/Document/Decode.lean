import PlaneSketch.Document
import PlaneSketch.Json.Decode

/-! The JSON forms of documents that are accepted. -/
namespace PlaneSketch

open Json Json.Decoder

def EntityId.decode : Decoder EntityId := fun t => do
  required (EntityId.ofText? (← string t))

def Cell.decode : Decoder (Cell Float) :=
  record ["value", "constant"]
    (fun key t (value, constant) => match key with
      | "value" => do return (some (← float t), constant)
      | _ => do return (value, ← bool t))
    (none, false)
    fun (value, constant) => do return ⟨← required value, constant⟩

def Point.decode : Decoder (Point Nat) :=
  record ["x", "y"]
    (fun key t (x, y) => match key with
      | "x" => do return (some (← nat t), y)
      | _ => do return (x, some (← nat t)))
    (none, none)
    fun (x, y) => do return ⟨← required x, ← required y⟩

namespace Figure

structure Fields where
  x : Option Nat
  y : Option Nat
  r : Option Nat
  c : Option (Point Nat)
  p0 : Option (Point Nat)
  p1 : Option (Point Nat)

def Fields.read (key : String) (t : Tree) (fields : Fields) : Except Refusal Fields :=
  match key with
  | "x" => do return { fields with x := some (← nat t) }
  | "y" => do return { fields with y := some (← nat t) }
  | "r" => do return { fields with r := some (← nat t) }
  | "c" => do return { fields with c := some (← Point.decode t) }
  | "p0" => do return { fields with p0 := some (← Point.decode t) }
  | _ => do return { fields with p1 := some (← Point.decode t) }

def fieldNames : FigureKind → List String
  | .point => ["x", "y"]
  | .line => ["p0", "p1"]
  | .circle => ["c", "r"]
  | .arc => ["c", "r", "p0", "p1"]

def ofFields (kind : FigureKind) (fields : Fields) : Except Refusal (Figure Nat) :=
  match kind with
  | .point => do return .point ⟨← required fields.x, ← required fields.y⟩
  | .line => do return .line ⟨← required fields.p0, ← required fields.p1⟩
  | .circle => do return .circle ⟨← required fields.c, ← required fields.r⟩
  | .arc => do
    return .arc ⟨← required fields.c, ← required fields.r, ← required fields.p0,
      ← required fields.p1⟩

def decodeFields (kind : FigureKind) : Decoder (Figure Nat) := fun t =>
  (record (fieldNames kind) Fields.read ⟨none, none, none, none, none, none⟩ (ofFields kind) t).mapError
    fun _ => .mismatched

def decodeKind : Decoder FigureKind := fun t => do
  let name ← string t
  required ([.point, .line, .circle, .arc].find? fun kind => FigureKind.name kind == name)

/-- Take in one member of a shape. The kind may stand anywhere and is judged at once; everything
else is read in full before it is judged. -/
def decodeMember (room : Nat) (state : Option FigureKind × List (Option String × Tree))
    (entry : Option String × Tree) :
    Except Refusal (Option FigureKind × List (Option String × Tree)) :=
  match entry with
  | (none, _) => .error .malformed
  | (some "type", t) => do
    if state.1.isSome then throw .mismatched
    return (some (← decodeKind t), state.2)
  | (key, t) => if t.plain room then .ok (state.1, state.2 ++ [(key, t)]) else .error .malformed

/-- A shape, in which at most `room` arrays and objects may be open at once. It is an object with
its kind under `type`, or an array that starts with its kind. -/
def decode (room : Nat) : Decoder (Figure Nat)
  | .obj members closed => do
    if room = 0 then throw .malformed
    let (kind, fields) ← members.foldlM (decodeMember (room - 1)) (none, [])
    closing closed
    decodeFields (← required kind) (.obj fields true)
  | .arr items closed => do
    if room = 0 then throw .malformed
    match items with
    | [] =>
      closing closed
      throw .mismatched
    | first :: rest =>
      let kind ← decodeKind first
      if !rest.all (Tree.plain (room - 1)) then throw .malformed
      closing closed
      decodeFields kind (.arr rest true)
  | t => .error (misfit t)

end Figure

def nestingLimit : Nat := 127

def FigureRecord.decode (depth : Nat) : Decoder FigureRecord :=
  record ["id", "shape"]
    (fun key t (id, shape) => match key with
      | "id" => do return (some (← EntityId.decode t), shape)
      | _ => do return (id, some (← Figure.decode (nestingLimit - depth - 1) t)))
    (none, none)
    fun (id, shape) => do return ⟨← required id, ← required shape⟩

def FigureRef.decode : Decoder FigureRef :=
  record ["id", "part"]
    (fun key t (id, part) => match key with
      | "id" => do return (some (← EntityId.decode t), part)
      | _ => do return (id, ← optional nat t))
    (none, none)
    fun (id, part) => do return ⟨← required id, part⟩

def VariableRef.decode : Decoder VariableRef :=
  record ["figure", "index"]
    (fun key t (figure, index) => match key with
      | "figure" => do return (some (← EntityId.decode t), index)
      | _ => do return (figure, some (← nat t)))
    (none, none)
    fun (figure, index) => do return ⟨← required figure, ← required index⟩

def OperandRef.decode : Decoder OperandRef :=
  choice (fun _ => .error .mismatched) fun
    | "figure" => .ok fun t => (FigureRef.decode t).map .figure
    | "variable" => .ok fun t => (VariableRef.decode t).map .bare
    | _ => .error .mismatched

def RelationKind.decode : Decoder RelationKind :=
  choice (fun name => required (ofTag? name)) fun name => do
    let kind ← required (ofTag? name)
    return fun t => (unit t).map fun _ => kind

def RelationRecord.decode : Decoder RelationRecord :=
  record ["kind", "operands"]
    (fun key t (kind, operands) => match key with
      | "kind" => do return (some (← RelationKind.decode t), operands)
      | _ => do return (kind, some (← list OperandRef.decode t)))
    (none, none)
    fun (kind, operands) => do return ⟨← required kind, ← required operands⟩

/-- Settings that are left out have their standard values. -/
def Config.decode : Decoder (Config Float) :=
  record ["max_iterations", "tolerance", "relaxation", "damped_relaxation"]
    (fun key t config => match key with
      | "max_iterations" => do return { config with maxIterations := ← nat t }
      | "tolerance" => do return { config with tolerance := ← float t }
      | "relaxation" => do return { config with relaxation := ← float t }
      | _ => do return { config with dampedRelaxation := ← float t })
    Config.standard .ok

namespace Document

structure Fields where
  cells : Option (List (Cell Float))
  figures : Option (List FigureRecord)
  relations : List RelationRecord
  config : Config Float

def decode (depth : Nat) : Decoder (Document Float) :=
  record ["cells", "figures", "relations", "config"]
    (fun key t (fields : Fields) => match key with
      | "cells" => do return { fields with cells := some (← list Cell.decode t) }
      | "figures" => do
        return { fields with figures := some (← list (FigureRecord.decode (depth + 2)) t) }
      | "relations" => do return { fields with relations := ← list RelationRecord.decode t }
      | _ => do return { fields with config := ← Config.decode t })
    ⟨none, none, [], Config.standard⟩
    fun fields => do
      return ⟨← required fields.cells, ← required fields.figures, fields.relations, fields.config⟩

def ofText (text : String) : Except Refusal (Document Float) := Json.decode (decode 0) text

end Document

end PlaneSketch
