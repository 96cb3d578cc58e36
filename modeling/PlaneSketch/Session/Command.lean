import PlaneSketch.Document.Decode

/-! The text commands of a session. -/
namespace PlaneSketch

/-- The characters with the Unicode property White_Space, as ranges with both ends included. -/
def blankRanges : List (Nat × Nat) :=
  [(0x9, 0xD), (0x20, 0x20), (0x85, 0x85), (0xA0, 0xA0), (0x1680, 0x1680), (0x2000, 0x200A),
    (0x2028, 0x2029), (0x202F, 0x202F), (0x205F, 0x205F), (0x3000, 0x3000)]

def isBlank (c : Char) : Bool :=
  blankRanges.any fun (first, last) => decide (first ≤ c.toNat ∧ c.toNat ≤ last)

def trimBlanks (cs : List Char) : List Char :=
  ((cs.dropWhile isBlank).reverse.dropWhile isBlank).reverse

example : isBlank '\t' ∧ isBlank ' ' ∧ ¬isBlank (Char.ofNat 0x1C) ∧ ¬isBlank (Char.ofNat 0xFEFF) := by
  decide

structure PinRequest where
  target : VariableRef
  value : Float
  hold : Bool

structure DragRequest where
  figure : EntityId
  start : Point Float
  goal : Point Float
  damped : Bool

inductive Command
  | load (document : Document Float)
  | pin (request : PinRequest)
  | drag (request : DragRequest)
  | solve (damped : Bool)
  | get

inductive Payload
  | load
  | pin
  | drag
  deriving DecidableEq, Repr

def Payload.name : Payload → String
  | .load => "LOAD"
  | .pin => "PIN"
  | .drag => "DRAG"

inductive SessionError
  | unknownCommand (start : String)
  | malformedPayload (payload : Payload)
  | sketch (error : SketchError Float)
  deriving Repr

namespace SessionError

def code : SessionError → String
  | .unknownCommand _ => "UNKNOWN_COMMAND"
  | .malformedPayload _ => "MALFORMED_PAYLOAD"
  | .sketch _ => "SKETCH_ERROR"

/-- The error for people to read. What the reader itself says of a malformed payload, which would follow
after a colon, is left out. -/
def message : SessionError → String
  | .unknownCommand start => "Unknown command: " ++ start
  | .malformedPayload payload => "Malformed " ++ payload.name ++ " payload"
  | .sketch error => error.message

end SessionError

open Json Json.Decoder

def PinRequest.decode : Decoder PinRequest :=
  record ["variable", "value", "hold"]
    (fun key t (target, value, hold) => match key with
      | "variable" => do return (some (← VariableRef.decode t), value, hold)
      | "value" => do return (target, some (← float t), hold)
      | _ => do return (target, value, ← bool t))
    (none, none, false)
    fun (target, value, hold) => do return ⟨← required target, ← required value, hold⟩

def decodePosition : Decoder (Point Float) := fun t => do
  let (x, y) ← pair float t
  return ⟨x, y⟩

def DragRequest.decode : Decoder DragRequest :=
  record ["figure", "from", "to", "damped"]
    (fun key t (figure, start, goal, damped) => match key with
      | "figure" => do return (some (← EntityId.decode t), start, goal, damped)
      | "from" => do return (figure, some (← decodePosition t), goal, damped)
      | "to" => do return (figure, start, some (← decodePosition t), damped)
      | _ => do return (figure, start, goal, ← bool t))
    (none, none, none, false)
    fun (figure, start, goal, damped) => do
      return ⟨← required figure, ← required start, ← required goal, damped⟩

namespace Command

def payload {β : Type} (name : Payload) (decoder : Decoder β) (cs : List Char) :
    Except SessionError β :=
  (Json.decode decoder (String.ofList cs)).mapError fun _ => .malformedPayload name

def shownLength : Nat := 32

/-- The command that a text stands for, blanks around it aside. -/
def parse (text : String) : Except SessionError Command :=
  let cs := trimBlanks text.toList
  match following? "LOAD:".toList cs, following? "PIN:".toList cs,
      following? "DRAG:".toList cs with
  | some rest, _, _ => (payload .load (Document.decode 0) rest).map .load
  | _, some rest, _ => (payload .pin PinRequest.decode rest).map .pin
  | _, _, some rest => (payload .drag DragRequest.decode rest).map .drag
  | none, none, none =>
    match String.ofList cs with
    | "SOLVE" => .ok (.solve false)
    | "SOLVE_DAMPED" => .ok (.solve true)
    | "GET" => .ok .get
    | _ => .error (.unknownCommand (String.ofList (cs.take shownLength)))

end Command

end PlaneSketch
