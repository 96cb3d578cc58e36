import PlaneSketch.Event
import PlaneSketch.Relation.Build

/-! Sketches: figures under ids, relations over their variables, and the solver's settings. The
values live in a store beside the sketch. -/
namespace PlaneSketch

structure Entity where
  id : EntityId
  figure : Figure Variable
  deriving Repr

structure Sketch (α ρ : Type) where
  entities : List Entity
  relations : List ρ
  config : Config α

/-- A figure of the sketch or, with a part, one of the points it is composed of. -/
structure FigureRef where
  id : EntityId
  part : Option Nat
  deriving DecidableEq, Repr

structure VariableRef where
  figure : EntityId
  index : Nat
  deriving DecidableEq, Repr

inductive SketchError (α : Type)
  | unknownCell (index : Nat)
  | unknownFigure (id : EntityId)
  | duplicateFigure (id : EntityId)
  | unknownPart (figure : EntityId) (part : Nat)
  | unknownVariable (figure : EntityId) (index : Nat)
  | invalidOperands (kind : RelationKind) (fault : OperandFault)
  | detachedOperand (kind : RelationKind)
  | invalidConfig (fault : ConfigFault α)
  deriving Repr

namespace SketchError

def messageWith (idText : EntityId → String) : SketchError Float → String
  | .unknownCell index => s!"Unknown cell index: {index}"
  | .unknownFigure id => "Unknown figure: " ++ idText id
  | .duplicateFigure id => "Duplicate figure id: " ++ idText id
  | .unknownPart figure part => "Figure " ++ idText figure ++ s!" has no child figure {part}"
  | .unknownVariable figure index => "Figure " ++ idText figure ++ s!" has no variable {index}"
  | .invalidOperands kind fault =>
    "Invalid operands for " ++ kind.name ++ " relation: " ++ fault.message
  | .detachedOperand kind =>
    "Relation " ++ kind.name ++ " refers to a figure that is not part of the sketch"
  | .invalidConfig fault => "Invalid solver config: " ++ fault.message

def message (e : SketchError Float) : String := e.messageWith EntityId.text

end SketchError

namespace Sketch

variable {α ρ : Type}

def figure? (sketch : Sketch α ρ) (id : EntityId) : Option (Figure Variable) :=
  (sketch.entities.find? fun e => e.id == id).map Entity.figure

/-- The id under which this very figure was added first. -/
def idOf? (sketch : Sketch α ρ) (figure : Figure Variable) : Option EntityId :=
  (sketch.entities.find? fun e => e.figure == figure).map Entity.id

def insert (sketch : Sketch α ρ) (id : EntityId) (figure : Figure Variable) :
    Except (SketchError α) (Sketch α ρ) :=
  if (sketch.figure? id).isSome then .error (.duplicateFigure id)
  else .ok { sketch with entities := sketch.entities ++ [⟨id, figure⟩] }

/-- Add a figure under an id drawn for it. Drawn ids are taken to differ from all others. -/
def add (sketch : Sketch α ρ) (drawn : EntityId) (figure : Figure Variable) : Sketch α ρ :=
  { sketch with entities := sketch.entities ++ [⟨drawn, figure⟩] }

def relate (sketch : Sketch α ρ) (relation : ρ) : Sketch α ρ :=
  { sketch with relations := sketch.relations ++ [relation] }

def resolveFigure (sketch : Sketch α ρ) (ref : FigureRef) :
    Except (SketchError α) (Figure Variable) :=
  match sketch.figure? ref.id with
  | none => .error (.unknownFigure ref.id)
  | some figure =>
    match ref.part with
    | none => .ok figure
    | some part => (figure.parts[part]?).elim (.error (.unknownPart ref.id part)) (.ok ∘ .point)

def resolveVariable (sketch : Sketch α ρ) (ref : VariableRef) : Except (SketchError α) Variable :=
  match sketch.figure? ref.figure with
  | none => .error (.unknownFigure ref.figure)
  | some figure => (figure.toList[ref.index]?).elim (.error (.unknownVariable ref.figure ref.index)) .ok

variable [Scalar α]

def empty : Sketch α ρ := ⟨[], [], Config.standard⟩

def error [Constraint α ρ] (sketch : Sketch α ρ) (s : Store α) : α := totalError s sketch.relations

end Sketch

end PlaneSketch
